import AgentColab.Usage.Budget
import Mathlib.Algebra.Order.BigOperators.Group.List
import Mathlib.Algebra.Order.Group.Nat

/-!
# A reservation does not oversubscribe its scope

Whoever reserves in a scope takes the scope's lock first and keeps it to the end of the transaction.
From then on the others can only close reservations of the scope, so the sum that was read is a
bound on what is open until the transaction commits.
-/

namespace AgentColab.Usage

open AgentColab Transaction System List Option
open Prog (conforms_do)
open Except (ok)

/-- The scope and the day that is watched, the limit of the scope, and the Runs that are named
with it. -/
structure Watch where
  scope : BudgetScope
  day : ℤ
  limit : ℤ
  runIds : List String

/-! ## What a call knows -/

structure BudgetKnown where
  /-- The scope, the limit and the Runs that the call is about. -/
  target : Option BudgetScope := none
  limit : ℤ := 0
  runIds : List String := []
  /-- Whether the lock of the watched scope is held. -/
  locked : Bool := false
  used : Option ℕ := none
  /-- A bound on the open reservations of the watched scope. -/
  reserved : Option ℕ := none
  /-- Whether the call has reserved in the watched scope, and whether it has changed any
  reservation. -/
  inserted : Bool := false
  wrote : Bool := false
  events : List AppendRequest := []

namespace BudgetKnown

def start : BudgetCall → BudgetKnown
  | .tryReserve r => { target := some r.scope, limit := r.limitCostUnits, runIds := r.runIds }
  | _ => {}

variable (W : Watch)

def next (m : BudgetKnown) : (o : Op) → Res o → BudgetKnown
  | .lockScope scope, () => if scope = W.scope then { m with locked := true } else m
  | .usageFor scope day runIds, .ok used =>
    if scope = W.scope ∧ day = W.day ∧ runIds = m.runIds then { m with used := some used } else m
  | .reserved scope day none, reserved =>
    if scope = W.scope ∧ day = W.day ∧ m.locked then { m with reserved := some reserved } else m
  | .insertReservation row, .ok () =>
    { m with
      inserted := m.inserted || row.scope = W.scope
      reserved := none
      wrote := true }
  | .closeReservation _ _ _ _, _ => { m with wrote := true }
  | .append request, .ok _ => { m with events := m.events ++ [request] }
  | _, _ => m

/-- The estimate fits below what is known to be spent. -/
structure MayReserve (m : BudgetKnown) (row : ReservationRow) : Prop where
  target : m.target = some W.scope
  locked : m.locked = true
  fits : ∃ used reserved, m.used = some used ∧ m.reserved = some reserved ∧
    ((used + reserved + row.estimatedCostUnits : ℕ) : ℤ) ≤ m.limit

def may (m : BudgetKnown) : Op → Prop
  | .insertReservation row => row.scope = W.scope → m.MayReserve W row
  | .closeReservation _ status _ _ => status ≠ .reserved
  | .closeRunBudget _ _ _ _ _ => False
  | .insertAlert _ => False
  | _ => True

def ok (_ : BudgetKnown) : (o : Op) → Res o → Prop
  | .now, now => inDay W.day now = true
  | _, _ => True

/-- How a call of `try_reserve` may end: granted with a reservation, or refused with one Event and
nothing else. -/
def Ends (m : BudgetKnown) : BudgetCall → Except BudgetError BudgetResult → Prop
  | .tryReserve r, .ok (.outcome o) =>
    (o.reserved = true → r.scope = W.scope → m.inserted = true) ∧
      (o.reserved = false → m.wrote = false ∧
        ∃ key, m.events = [r.exceeded o.usedCostUnits o.reservedCostUnits key])
  | _, _ => True

end BudgetKnown

def budgetMonitor (W : Watch) : Monitor Res BudgetKnown where
  may := BudgetKnown.may W
  ok := BudgetKnown.ok W
  next := BudgetKnown.next W

/-! ## Conformance -/

section Conformance

variable {W : Watch} {α : Type} {m : BudgetKnown}

/-- Conformance to the monitor of the budget calls. -/
abbrev Body.Conforms (W : Watch) (p : Body α) (Q : Except BudgetError α → BudgetKnown → Prop)
    (m : BudgetKnown) : Prop :=
  Prog.Conforms (budgetMonitor W) Q p m

theorem ask_conforms {o : Op} {Q : Except BudgetError (Res o) → BudgetKnown → Prop}
    (hmay : m.may W o) (h : ∀ r, m.ok W o r → Q (.ok r) (m.next W o r)) :
    Body.Conforms W (ask o) Q m := .issue hmay h

theorem orRaise_conforms {x : Except BudgetError α} {Q : Except BudgetError α → BudgetKnown → Prop}
    (herr : ∀ e, x = .error e → Q (.error e) m) (hok : ∀ a, x = .ok a → Q (.ok a) m) :
    Body.Conforms W (orRaise x) Q m := by
  cases x with
  | error e => exact .raise (herr e rfl)
  | ok a => exact .ret (hok a rfl)

theorem now_conforms {Q : Except BudgetError Time → BudgetKnown → Prop}
    (h : ∀ t, (dayWindow t).2.2 = W.day → Q (.ok t) m) : Body.Conforms W (ask .now) Q m :=
  ask_conforms trivial fun t ht ↦ h t (inDay_iff.1 ht)

variable {Q : Except BudgetError ℕ → BudgetKnown → Prop} {scope : BudgetScope} {r : TryReserve}

theorem usedCostUnits_conforms {runIds : List String} (herr : ∀ e, Q (.error e) m)
    (hok : ∀ used, Q (.ok used) (m.next W (.usageFor scope W.day runIds) (.ok used))) :
    Body.Conforms W (usedCostUnits scope runIds) Q m := by
  refine conforms_do (now_conforms fun t ht ↦ ?_)
  rw [Prog.bindPost_ok, ht]
  refine conforms_do (ask_conforms (o := .usageFor scope W.day runIds) trivial ?_)
  rintro (e | used) -
  · exact orRaise_conforms (fun _ _ ↦ herr _) nofun
  · exact orRaise_conforms nofun fun _ h ↦ ok.inj h ▸ hok used

theorem reservedCostUnits_conforms {exclude : Option String}
    (h : ∀ reserved, Q (.ok reserved) (m.next W (.reserved scope W.day exclude) reserved)) :
    Body.Conforms W (reservedCostUnits scope exclude) Q m := by
  refine conforms_do (now_conforms fun t ht ↦ ?_)
  rw [Prog.bindPost_ok, ht]
  exact ask_conforms (o := .reserved scope W.day exclude) trivial fun reserved _ ↦ h reserved

theorem eventKey_conforms {Q : Except BudgetError String → BudgetKnown → Prop}
    (h : ∀ key, Q (.ok key) m) : Body.Conforms W (eventKey r) Q m := by
  rw [eventKey]
  split
  · exact .ret (h _)
  · split
    · exact .ret (h _)
    · exact conforms_do (ask_conforms trivial fun hex _ ↦ .ret (h _))

theorem refuse_conforms {r : TryReserve} {used reserved : ℤ} {key : String}
    {Q : Except BudgetError ReservationOutcome → BudgetKnown → Prop} (herr : ∀ e m, Q (.error e) m)
    (hok : ∀ n, Q (.ok ⟨false, none, n, r.limitCostUnits, r.estimate, used, reserved⟩)
      { m with events := m.events ++ [r.exceeded used reserved key] }) :
    Body.Conforms W (refuse r used reserved key) Q m := by
  refine conforms_do (ask_conforms trivial ?_)
  rintro (e | n) -
  · exact conforms_do (orRaise_conforms (fun _ _ ↦ herr _ _) nofun)
  · exact conforms_do (orRaise_conforms nofun fun _ h ↦ ok.inj h ▸ .ret (hok n))

theorem grant_conforms {used reserved : ℤ}
    {Q : Except BudgetError ReservationOutcome → BudgetKnown → Prop} (herr : ∀ e m, Q (.error e) m)
    (hmay : r.scope = W.scope → ∀ row, row.scope = r.scope → row.estimatedCostUnits =
    r.estimate.toNat → m.MayReserve W row)
    (hok : ∀ o m', o.reserved = true → (r.scope = W.scope → m'.inserted = true) → Q (.ok o) m') :
    Body.Conforms W (grant r used reserved) Q m := by
  refine conforms_do (ask_conforms trivial fun hex _ ↦ ?_)
  split
  · exact .raise (herr _ _)
  · refine conforms_do (now_conforms fun now _ ↦ ?_)
    refine conforms_do (ask_conforms (fun hscope ↦ hmay hscope _ rfl rfl) ?_)
    rintro (e | ⟨⟩) -
    · exact conforms_do (orRaise_conforms (fun _ _ ↦ herr _ _) nofun)
    refine conforms_do (orRaise_conforms nofun fun _ _ ↦ ?_)
    refine conforms_do (ask_conforms trivial ?_)
    rintro (e | n) -
    · exact conforms_do (orRaise_conforms (fun _ _ ↦ herr _ _) nofun)
    refine conforms_do (orRaise_conforms nofun fun _ _ ↦ .ret (hok _ _ rfl fun hscope ↦ ?_))
    simp [BudgetKnown.next, hscope]

/-- What `try_reserve` knows when it has read both sums. -/
def BudgetKnown.read (W : Watch) (r : TryReserve) (used reserved : ℕ) : BudgetKnown :=
  if r.scope = W.scope then
    { BudgetKnown.start (.tryReserve r) with
      locked := true
      used := some used
      reserved := some reserved }
  else .start (.tryReserve r)

theorem BudgetKnown.next_read (r : TryReserve) (used reserved : ℕ) :
    (((BudgetKnown.start (.tryReserve r)).next W (.lockScope r.scope) ()).next W
      (.usageFor r.scope W.day r.runIds) (.ok used)).next W (.reserved r.scope W.day none)
        reserved = .read W r used reserved := by
  by_cases hscope : r.scope = W.scope <;>
    simp [BudgetKnown.next, BudgetKnown.read, BudgetKnown.start, hscope]

theorem tryReserve_conforms (r : TryReserve) :
    Body.Conforms W (tryReserve r) (fun x m ↦ ∀ o, x = .ok o →
      m.Ends W (.tryReserve r) (.ok (.outcome o))) (.start (.tryReserve r)) := by
  rw [tryReserve]
  split
  · exact .raise nofun
  rename_i hvalue
  refine conforms_do (ask_conforms (o := .lockScope r.scope) trivial fun _ _ ↦ ?_)
  refine conforms_do (usedCostUnits_conforms (fun _ ↦ nofun) fun used ↦ ?_)
  refine conforms_do (reservedCostUnits_conforms fun reserved ↦ ?_)
  rw [BudgetKnown.next_read]
  refine conforms_do (eventKey_conforms fun key ↦ ?_)
  have hwrote : (BudgetKnown.read W r used reserved).wrote = false := by
    rw [BudgetKnown.read]
    split <;> rfl
  have hevents : (BudgetKnown.read W r used reserved).events = [] := by
    rw [BudgetKnown.read]
    split <;> rfl
  split
  · refine refuse_conforms (fun _ _ ↦ nofun) fun n o ho ↦ ?_
    obtain rfl := ok.inj ho
    exact ⟨nofun, fun _ ↦ ⟨hwrote, key, by rw [hevents, nil_append]⟩⟩
  · rename_i hfits
    refine grant_conforms (fun _ _ ↦ nofun) (fun hscope row _ hestimate ↦ ?_)
      fun o m' ho hinserted o' ho' ↦ ?_
    · rw [BudgetKnown.read, if_pos hscope]
      refine ⟨congrArg some hscope, rfl, used, reserved, rfl, rfl, ?_⟩
      rw [wouldExceed, decide_eq_true_iff, Int.not_lt] at hfits
      change ((used + reserved + row.estimatedCostUnits : ℕ) : ℤ) ≤ r.limitCostUnits
      omega
    · obtain rfl := ok.inj ho'
      exact ⟨fun _ ↦ hinserted, fun hfalse ↦ absurd (ho.symm.trans hfalse) nofun⟩

theorem loadReservation_conforms {rid : String}
    {Q : Except BudgetError ReservationRow → BudgetKnown → Prop} (herr : ∀ e, Q (.error e) m)
    (hok : ∀ row, Q (.ok row) m) : Body.Conforms W (loadReservation rid) Q m := by
  refine conforms_do (ask_conforms trivial ?_)
  rintro (_ | row) -
  · exact .raise (herr _)
  · exact .ret (hok row)

theorem settle_conforms (a : Settle) (m : BudgetKnown) :
    Body.Conforms W (settle a) (fun _ _ ↦ True) m := by
  rw [settle]
  split
  · exact .raise trivial
  refine conforms_do (loadReservation_conforms (fun _ ↦ trivial) fun row ↦ ?_)
  refine conforms_do (ask_conforms (o := .lockScope row.scope) trivial fun _ _ ↦ ?_)
  split
  · exact .raise trivial
  refine conforms_do (usedCostUnits_conforms (fun _ ↦ trivial) fun used ↦ ?_)
  refine conforms_do (reservedCostUnits_conforms fun reserved ↦ ?_)
  refine conforms_do (now_conforms fun now _ ↦ ?_)
  have hstatus : settlementStatus a.actualCostUnits (a.limitCostUnits - used - reserved) ≠
      .reserved := by
    rw [settlementStatus]
    split <;> decide
  refine conforms_do (ask_conforms hstatus ?_)
  rintro (e | ⟨⟩) -
  · exact conforms_do (orRaise_conforms (fun _ _ ↦ trivial) nofun)
  · exact conforms_do (orRaise_conforms nofun fun _ _ ↦ .ret trivial)

theorem release_conforms (rid : String) (m : BudgetKnown) :
    Body.Conforms W (release rid) (fun _ _ ↦ True) m := by
  refine conforms_do (loadReservation_conforms (fun _ ↦ trivial) fun row ↦ ?_)
  rw [Prog.bindPost_ok]
  split
  · exact .raise trivial
  refine conforms_do (now_conforms fun now _ ↦ ?_)
  refine conforms_do (ask_conforms (o := .closeReservation _ _ _ _) nofun ?_)
  rintro (e | ⟨⟩) -
  · exact orRaise_conforms (fun _ _ ↦ trivial) nofun
  · exact orRaise_conforms nofun fun _ _ ↦ trivial

end Conformance

def budgetProtocol (W : Watch) : Protocol budgetSystem BudgetKnown where
  monitor := budgetMonitor W
  start := .start
  finish e x m := m.Ends W e x
  conforms e := by
    cases e with
    | tryReserve r =>
      refine conforms_do ((tryReserve_conforms r).mono ?_)
      rintro (e | o) m h
      · exact trivial
      · exact .ret (h o rfl)
    | settle a =>
      refine conforms_do ((settle_conforms a _).mono ?_)
      rintro (e | status) m -
      · exact trivial
      · exact .ret trivial
    | release rid =>
      refine conforms_do ((release_conforms rid _).mono ?_)
      rintro (e | ⟨⟩) m -
      · exact trivial
      · exact .ret trivial

/-! ## The open reservations -/

/-- Whether a change adds a reservation to the watched scope. -/
def BudgetWrite.Inserts (W : Watch) : BudgetWrite → Prop
  | insertReservation row => row.scope = W.scope
  | _ => False

/-- Whether a change opens no reservation again. -/
def BudgetWrite.Proper : BudgetWrite → Prop
  | closeReservation _ status _ _ => status ≠ .reserved
  | _ => True

/-- The open reservations of the watched scope on the watched day. -/
def Watch.openRows (W : Watch) (db : BudgetTables) : List ReservationRow :=
  db.openReservations W.scope W.day none

def Watch.reserved (W : Watch) (db : BudgetTables) : ℕ := estimates (W.openRows db)

section Open

variable {W : Watch} {db db' : BudgetTables}

theorem openRows_insertReservation (row : ReservationRow) :
    W.openRows (db.apply (.insertReservation row)) =
      W.openRows db ++ W.openRows { db with reservations := [row] } := filter_append ..

theorem openRows_closeReservation {rid : String} {status : ReservationStatus}
    (hstatus : status ≠ .reserved) (cost : Option ℤ) (at' : Time) :
    W.openRows (db.apply (.closeReservation rid status cost at')) =
      (W.openRows db).filter (·.reservationId ≠ rid) := by
  simp only [Watch.openRows, BudgetTables.openReservations, BudgetTables.apply, List.filter_filter]
  induction db.reservations with
  | nil => rfl
  | cons r _ ih =>
    rw [map_cons]
    by_cases hid : r.reservationId = rid
    · rw [if_pos hid, filter_cons_of_neg (by simp [ReservationRow.close, hstatus]),
        filter_cons_of_neg (by simp [hid]), ih]
    · rw [if_neg hid, filter_cons, filter_cons, ih]
      simp [hid]

variable {x : BudgetWrite} {log : List BudgetWrite}

theorem openRows_apply_sublist (hx : x.Proper) (h : (W.openRows db').Sublist (W.openRows db)) :
    (W.openRows (db'.apply x)).Sublist (W.openRows (db.apply x)) := by
  cases x with
  | insertReservation =>
    rw [openRows_insertReservation, openRows_insertReservation]
    exact h.append (.refl _)
  | closeReservation =>
    rw [openRows_closeReservation hx, openRows_closeReservation hx]
    exact h.filter _
  | _ => exact h

theorem openRows_apply_of_not_inserts (hx : x.Proper) (hins : ¬x.Inserts W) :
    (W.openRows (db.apply x)).Sublist (W.openRows db) := by
  cases x with
  | insertReservation row =>
    have hnone : W.openRows { db with reservations := [row] } = [] := by
      have hscope : row.scope ≠ W.scope := hins
      simp [Watch.openRows, BudgetTables.openReservations, hscope]
    rw [openRows_insertReservation, hnone, append_nil]
  | closeReservation =>
    rw [openRows_closeReservation hx]
    exact filter_sublist
  | _ => exact .refl _

theorem openRows_view_sublist (hproper : ∀ x ∈ log, x.Proper)
    (h : (W.openRows db').Sublist (W.openRows db)) :
    (W.openRows (budgetDatabase.view db' log)).Sublist
      (W.openRows (budgetDatabase.view db log)) := by
  induction log generalizing db db' with
  | nil => exact h
  | cons x _ ih =>
    exact ih (fun y hy ↦ hproper y (mem_cons_of_mem x hy))
      (openRows_apply_sublist (hproper x mem_cons_self) h)

theorem openRows_view_of_not_inserts (hproper : ∀ x ∈ log, x.Proper)
    (hins : ∀ x ∈ log, ¬x.Inserts W) :
    (W.openRows (budgetDatabase.view db log)).Sublist (W.openRows db) := by
  induction log generalizing db with
  | nil => exact .refl _
  | cons x _ ih =>
    exact (ih (fun y hy ↦ hproper y (mem_cons_of_mem x hy))
      fun y hy ↦ hins y (mem_cons_of_mem x hy)).trans
      (openRows_apply_of_not_inserts (hproper x mem_cons_self) (hins x mem_cons_self))

theorem reserved_le (h : (W.openRows db').Sublist (W.openRows db)) :
    W.reserved db' ≤ W.reserved db := (h.map _).sum_le_sum fun _ _ ↦ Nat.zero_le _

theorem reserved_insertReservation (row : ReservationRow) :
    W.reserved (db.apply (.insertReservation row)) ≤ W.reserved db + row.estimatedCostUnits := by
  have hrow : W.reserved { db with reservations := [row] } ≤ row.estimatedCostUnits := by
    rw [Watch.reserved, Watch.openRows, BudgetTables.openReservations, filter_cons]
    split <;> simp [estimates]
  rw [Watch.reserved, openRows_insertReservation, estimates, map_append, sum_append]
  exact Nat.add_le_add_left hrow _

theorem usageFor_view (log : List BudgetWrite) (scope : BudgetScope) (day : ℤ)
    (runIds : List String) : (budgetDatabase.view db log : BudgetTables).usageFor scope day runIds =
      db.usageFor scope day runIds := by
  induction log generalizing db with
  | nil => rfl
  | cons x _ ih =>
    refine (@ih (db.apply x)).trans ?_
    cases x <;> rfl

end Open

/-! ## The invariant -/

/-- What is used in the watched scope and what is open in it stay below the limit. -/
def Watch.Fits (W : Watch) (db : BudgetTables) : Prop :=
  ∃ used, db.usageFor W.scope W.day W.runIds = some used ∧
    ((used + W.reserved db : ℕ) : ℤ) ≤ W.limit

variable {W : Watch}

theorem Watch.Fits.mono {db db' : BudgetTables} (h : W.Fits db)
    (hused : db'.usageFor W.scope W.day W.runIds = db.usageFor W.scope W.day W.runIds)
    (hopen : (W.openRows db').Sublist (W.openRows db)) : W.Fits db' := by
  obtain ⟨used, hu, hfits⟩ := h
  refine ⟨used, hused.trans hu, ?_⟩
  have := reserved_le hopen
  omega

/-- A refused call has appended at most its Event: an Event that is there already is not appended
again. -/
def Refused (f : budgetSystem.Finished) : Prop :=
  ∀ (r : TryReserve) (o : ReservationOutcome), f.entry = .tryReserve r →
    f.outcome = .ok (.outcome o) → o.reserved = false → ∃ key, f.log₁ = f.log₀ ∨
      ∃ n, f.log₁ = (f.log₀ : List BudgetWrite) ++
        [.insertEvent ⟨n, r.exceeded o.usedCostUnits o.reservedCostUnits key⟩]

section Invariant

variable (W : Watch)

/-- Whether a redo log reserves in the watched scope. -/
def Reserves (log : List BudgetWrite) : Prop := ∃ x ∈ log, x.Inserts W

/-- What holds of a call in progress, of what it knows and what it has written. -/
structure InCall (w : budgetSystem.World) (i : ℕ) (s : budgetSystem.Session) (m : BudgetKnown)
    (log₀ : List BudgetWrite) : Prop where
  fixed : m.target = some W.scope → m.limit = W.limit ∧ m.runIds = W.runIds
  locked : m.locked = true → w.Held i (.scope W.scope)
  used : ∀ used, m.used = some used →
    (w.store : BudgetTables).usageFor W.scope W.day m.runIds = some used
  reserved : ∀ reserved, m.reserved = some reserved → m.locked = true ∧
    W.reserved (w.view s) ≤ reserved
  inserted : m.inserted = true → Reserves W s.log
  wrote : ∃ new : List BudgetWrite, s.log = log₀ ++ new ∧ (m.wrote = false →
    new.length ≤ m.events.length ∧ ∀ x ∈ new, ∃ n, ∃ r ∈ m.events, x = .insertEvent ⟨n, r⟩)

/-- What holds of a session: what it has reserved fits, under the lock of the scope. -/
structure Guarded (w : budgetSystem.World) (i : ℕ) (s : budgetSystem.Session) : Prop where
  proper : ∀ x ∈ s.log, BudgetWrite.Proper x
  fits : Reserves W s.log → w.Held i (.scope W.scope) ∧ W.Fits (w.view s)
  done : ∀ (r : TryReserve) (o : ReservationOutcome),
    (BudgetCall.tryReserve r, ok (BudgetResult.outcome o)) ∈ s.done →
    r.scope = W.scope → o.reserved = true → Reserves W s.log
  call : ∀ c, s.call = some c → InCall W w i s ((budgetProtocol W).known c) c.log₀

structure Sound (w : budgetSystem.World) : Prop where
  session : ∀ i s, w.sessions i = some s → Guarded W w i s
  refused : ∀ f ∈ w.calls, Refused f

/-- The clock stays in the day, and the limit of the scope and the Runs named with it stay the
same. -/
def Fixed (_ : budgetSystem.World) : budgetSystem.Label → Prop
  | .call _ (.tryReserve r) => r.scope = W.scope → r.limitCostUnits = W.limit ∧ r.runIds = W.runIds
  | .exec _ inp => inDay W.day (inp : BudgetInput).now = true
  | _ => True

end Invariant

section Steps

variable {W : Watch} {w w' : budgetSystem.World} {i : ℕ} {s : budgetSystem.Session}

/-- What the invariant says of a session depends on the store only through what is open and what is
used, and it may come to hold more locks. -/
theorem Guarded.mono (h : Guarded W w i s) (hheld : ∀ k, w.Held i k → w'.Held i k)
    (hused : ∀ runIds, (w'.store : BudgetTables).usageFor W.scope W.day runIds =
      (w.store : BudgetTables).usageFor W.scope W.day runIds)
    (hopen : w.Held i (.scope W.scope) → (W.openRows (w'.view s)).Sublist (W.openRows (w.view s))) :
    Guarded W w' i s where
  proper := h.proper
  fits hres := by
    obtain ⟨hlock, hfits⟩ := h.fits hres
    exact ⟨hheld _ hlock, hfits.mono
      ((usageFor_view ..).trans ((hused _).trans (usageFor_view ..).symm)) (hopen hlock)⟩
  done := h.done
  call c hc := by
    have hcall := h.call c hc
    refine ⟨hcall.fixed, fun hl ↦ hheld _ (hcall.locked hl), fun used hu ↦ ?_,
      fun reserved hr ↦ ?_, hcall.inserted, hcall.wrote⟩
    · rw [hused]
      exact hcall.used used hu
    · obtain ⟨hl, hle⟩ := hcall.reserved reserved hr
      exact ⟨hl, (reserved_le (hopen (hcall.locked hl))).trans hle⟩

theorem Guarded.congr (h : Guarded W w i s) (hheld : ∀ k, w.Held i k → w'.Held i k)
    (hstore : w'.store = w.store) : Guarded W w' i s := by
  have hview : w'.view s = w.view s := by rw [World.view, World.view, hstore]
  exact h.mono hheld (fun _ ↦ by rw [hstore]) fun _ ↦ by rw [hview]

theorem Guarded.fresh : Guarded W w i {} where
  proper _ hx := absurd hx not_mem_nil
  fits := fun ⟨_, hx, _⟩ ↦ absurd hx not_mem_nil
  done _ _ h := absurd h not_mem_nil
  call c hc := by cases hc

/-! ## One statement -/

variable {c : budgetSystem.Call} {o : Op} {eff : Eff (Res o)} {k : Res o → Body BudgetResult}
    {m : BudgetKnown} {log₀ : List BudgetWrite} {n : ℕ} {db : BudgetTables}
    {x : Except BudgetError BudgetResult}

theorem held_afterExec_mono (key : BudgetLock) (h : w.Held i key) :
    (w.afterExec i s c eff k).Held i key := World.held_afterExec.2 (.inr h)

theorem view_advance : (w.afterExec i s c eff k).view (s.advance c eff k) =
      budgetDatabase.view (w.view s) eff.writes := foldl_append ..

theorem fits_advance (h : W.Fits (budgetDatabase.view (w.view s) eff.writes)) :
    W.Fits ((w.afterExec i s c eff k).view (s.advance c eff k)) := by
  rw [view_advance]
  exact h

theorem InCall.fits (h : InCall W w i s m log₀) {row : ReservationRow} (hmay : m.MayReserve W row) :
    W.Fits ((w.view s : BudgetTables).apply (.insertReservation row)) := by
  obtain ⟨used, reserved, hu, hr, hfits⟩ := hmay.fits
  obtain ⟨hlimit, hruns⟩ := h.fixed hmay.target
  have hused := h.used used hu
  rw [hruns] at hused
  have hreserved := (h.reserved reserved hr).2
  have hadd : W.reserved ((w.view s : BudgetTables).apply (.insertReservation row)) ≤
      W.reserved (w.view s) + row.estimatedCostUnits := reserved_insertReservation row
  exact ⟨used, (usageFor_view (s.log : List BudgetWrite) ..).trans hused, by omega⟩

section Written

variable {m : BudgetKnown} {log₀ new : List budgetSystem.db.Write} {t : budgetSystem.Session}

theorem InCall.write {wrote : Bool} {events : List AppendRequest} (h : InCall W w i s m log₀)
    (hheld : ∀ k, w.Held i k → w'.Held i k) (hstore : w'.store = w.store)
    (hlog : t.log = s.log ++ new) (hproper : ∀ x ∈ new, BudgetWrite.Proper x)
    (hins : ∀ x ∈ new, ¬BudgetWrite.Inserts W x)
    (hnew : wrote = false → m.wrote = false ∧ m.events.length + new.length ≤ events.length ∧
      (∀ r ∈ m.events, r ∈ events) ∧ ∀ x ∈ new, ∃ n, ∃ r ∈ events, x = .insertEvent ⟨n, r⟩) :
    InCall W w' i t { m with wrote := wrote, events := events } log₀ where
  fixed := h.fixed
  locked hl := hheld _ (h.locked hl)
  used used hu := by
    rw [hstore]
    exact h.used used hu
  reserved reserved hr := by
    obtain ⟨hl, hle⟩ := h.reserved reserved hr
    have hview : w'.view t = budgetDatabase.view (w.view s) new := by
      rw [World.view, hstore, hlog]
      exact foldl_append ..
    rw [hview]
    exact ⟨hl, (reserved_le (openRows_view_of_not_inserts hproper hins)).trans hle⟩
  inserted hi := by
    obtain ⟨x, hx, hxW⟩ := h.inserted hi
    exact ⟨x, hlog ▸ mem_append_left _ hx, hxW⟩
  wrote := by
    obtain ⟨old, hold, hevents⟩ := h.wrote
    refine ⟨List.append old new, by rw [hlog, hold]; exact append_assoc .., fun hw ↦ ?_⟩
    obtain ⟨hm, hlen, hsub, hnew⟩ := hnew hw
    obtain ⟨hle, hmem⟩ := hevents hm
    refine ⟨?_, fun x hx ↦ ?_⟩
    · exact length_append.trans_le ((Nat.add_le_add_right hle _).trans hlen)
    rcases mem_append.1 hx with hx | hx
    · obtain ⟨n, r, hr, rfl⟩ := hmem x hx
      exact ⟨n, r, hsub r hr, rfl⟩
    · exact hnew x hx

theorem InCall.quiet (h : InCall W w i s m log₀) (hheld : ∀ k, w.Held i k → w'.Held i k)
    (hstore : w'.store = w.store) (hlog : t.log = s.log) : InCall W w' i t m log₀ :=
  h.write hheld hstore (hlog.trans (append_nil _).symm)
    (fun _ hx ↦ absurd hx not_mem_nil) (fun _ hx ↦ absurd hx not_mem_nil) fun hm ↦
      ⟨hm, Nat.le_refl _, fun _ hr ↦ hr, fun _ hx ↦ absurd hx not_mem_nil⟩

theorem InCall.insert (h : InCall W w i s m log₀) (hheld : ∀ k, w.Held i k → w'.Held i k)
    (hstore : w'.store = w.store) {row : ReservationRow}
    (hlog : t.log = (s.log : List BudgetWrite) ++ [.insertReservation row]) :
    InCall W w' i t (m.next W (.insertReservation row) (.ok ())) log₀ where
  fixed := h.fixed
  locked hl := hheld _ (h.locked hl)
  used used hu := by
    rw [hstore]
    exact h.used used hu
  reserved _ hr := by cases hr
  inserted hi := by
    rcases Bool.or_eq_true _ _ ▸ hi with hi | hi
    · obtain ⟨x, hx, hxW⟩ := h.inserted hi
      exact ⟨x, hlog ▸ mem_append_left _ hx, hxW⟩
    · have hscope : row.scope = W.scope := of_decide_eq_true hi
      exact ⟨.insertReservation row, hlog ▸ mem_append_right _ (mem_singleton.2 rfl), hscope⟩
  wrote := by
    obtain ⟨old, hold, -⟩ := h.wrote
    exact ⟨old ++ [.insertReservation row], by rw [hlog, hold]; exact append_assoc .., nofun⟩

end Written

theorem exec_insertReservation (inp : BudgetInput) (n : ℕ) (db : BudgetTables)
    (row : ReservationRow) : (∃ e locks, execStatement inp n db (.insertReservation row) =
        ⟨.error e, [], locks⟩) ∨ ∃ locks, execStatement inp n db (.insertReservation row) =
        ⟨.ok (), [.insertReservation row], locks⟩ := by
  rw [execStatement]
  split
  · exact .inl ⟨_, _, rfl⟩
  · split
    · exact .inr ⟨_, rfl⟩
    · exact .inl ⟨_, _, rfl⟩

theorem exec_closeReservation (inp : BudgetInput) (n : ℕ) (db : BudgetTables) (rid : String)
    (status : ReservationStatus) (cost : Option ℤ) (at' : Time) :
    ∃ r locks, ∃ new ⊆ [BudgetWrite.closeReservation rid status cost at'],
      execStatement inp n db (.closeReservation rid status cost at') = ⟨r, new, locks⟩ := by
  rw [execStatement]
  split
  · exact ⟨_, _, _, List.Subset.refl _, rfl⟩
  · exact ⟨_, _, _, nil_subset _, rfl⟩

theorem exec_append (inp : BudgetInput) (n : ℕ) (db : BudgetTables) (r : AppendRequest) :
    (∃ e locks, execStatement inp n db (.append r) = ⟨.error e, [], locks⟩) ∨
      ∃ a locks new, execStatement inp n db (.append r) = ⟨.ok a, new, locks⟩ ∧
        new.length ≤ 1 ∧ ∀ x ∈ new, x = .insertEvent ⟨n, r⟩ := by
  rw [execStatement, execAppend]
  split
  · split
    · exact .inr ⟨_, _, [], rfl, Nat.zero_le _, fun _ hx ↦ absurd hx not_mem_nil⟩
    · exact .inl ⟨_, _, rfl⟩
  · split
    · exact .inl ⟨_, _, rfl⟩
    · exact .inr ⟨_, _, _, rfl, Nat.le_refl _, fun _ hx ↦ mem_singleton.1 hx⟩

theorem InCall.exec (h : InCall W w i s m log₀) (inp : BudgetInput) (k : Res o → Body BudgetResult)
    (hmay : m.may W o) :
    InCall W (w.afterExec i s c (w.effect i s inp o) k) i (s.advance c (w.effect i s inp o) k)
      (m.next W o (w.effect i s inp o).result) log₀ := by
  have hheld := @held_afterExec_mono w i s c o (w.effect i s inp o) k
  have hquiet (hnone : (w.effect i s inp o).writes = []) :
      InCall W (w.afterExec i s c (w.effect i s inp o) k) i (s.advance c (w.effect i s inp o) k)
        m log₀ :=
    h.quiet hheld rfl ((congrArg (s.log ++ ·) hnone).trans (append_nil _))
  cases o with
  | now | uuidHex | loadReservation | runIdsForDay | openRunBudgets => exact hquiet rfl
  | lockScope scope =>
    change InCall W _ i _ (if scope = W.scope then { m with locked := true } else m) log₀
    split
    · rename_i hscope
      have hnew := hquiet rfl
      refine ⟨hnew.fixed, fun _ ↦ World.held_afterExec.2 (.inl ?_), hnew.used,
        fun reserved hr ↦ ⟨rfl, (hnew.reserved reserved hr).2⟩, hnew.inserted, hnew.wrote⟩
      rw [← hscope]
      exact mem_singleton.2 rfl
    · exact hquiet rfl
  | usageFor scope day runIds =>
    have hnew := hquiet rfl
    have hview : (w.view s : BudgetTables).usageFor scope day runIds =
        (w.store : BudgetTables).usageFor scope day runIds := usageFor_view ..
    have hres : (w.effect i s inp (.usageFor scope day runIds)).result =
        ((w.view s : BudgetTables).usageFor scope day runIds).elim (.error .value) .ok := rfl
    rw [hres]
    cases hused : (w.view s : BudgetTables).usageFor scope day runIds with
    | none => exact hnew
    | some used =>
      change InCall W _ i _ (if scope = W.scope ∧ day = W.day ∧ runIds = m.runIds then
        { m with used := some used } else m) log₀
      split
      · rename_i hwatch
        refine ⟨hnew.fixed, hnew.locked, fun u hu ↦ ?_, hnew.reserved, hnew.inserted, hnew.wrote⟩
        obtain rfl : used = u := some.inj hu
        obtain ⟨rfl, rfl, rfl⟩ := hwatch
        exact hview.symm.trans hused
      · exact hnew
  | reserved scope day exclude =>
    have hnew := hquiet rfl
    cases exclude with
    | some => exact hnew
    | none =>
      change InCall W _ i _ (if scope = W.scope ∧ day = W.day ∧ m.locked then
        { m with
          reserved := some (estimates ((w.view s : BudgetTables).openReservations scope day none)) }
        else m) log₀
      split
      · rename_i hwatch
        refine ⟨hnew.fixed, hnew.locked, hnew.used, fun r hr ↦ ?_, hnew.inserted, hnew.wrote⟩
        obtain ⟨rfl, rfl, hl⟩ := hwatch
        obtain rfl := some.inj hr
        exact ⟨hl, Nat.le_of_eq (congrArg W.reserved view_advance)⟩
      · exact hnew
  | insertReservation row =>
    obtain ⟨e, locks, heff⟩ | ⟨locks, heff⟩ := exec_insertReservation inp w.nonce (w.view s) row
    · have hnew := hquiet (congrArg Effect.writes heff)
      rw [show (w.effect i s inp (.insertReservation row)).result = .error e from
        congrArg Effect.result heff]
      exact hnew
    · rw [show (w.effect i s inp (.insertReservation row)).result = .ok () from
        congrArg Effect.result heff]
      exact h.insert hheld rfl (congrArg (s.log ++ ·) (congrArg Effect.writes heff))
  | closeReservation rid status cost at' =>
    obtain ⟨r, locks, new, hsub, heff⟩ :=
      exec_closeReservation inp w.nonce (w.view s) rid status cost at'
    have hnew : ∀ x ∈ new, x = .closeReservation rid status cost at' := fun x hx ↦
      mem_singleton.1 (hsub hx)
    refine h.write hheld rfl (congrArg (s.log ++ ·) (congrArg Effect.writes heff)) (fun x hx ↦ ?_)
      (fun x hx ↦ ?_) nofun
    · rw [hnew x hx]
      exact hmay
    · rw [hnew x hx]
      exact id
  | append r =>
    obtain ⟨e, locks, heff⟩ | ⟨a, locks, new, heff, hlen, hnew⟩ :=
      exec_append inp w.nonce (w.view s) r
    · have hsame := hquiet (congrArg Effect.writes heff)
      rw [show (w.effect i s inp (.append r)).result = .error e from congrArg Effect.result heff]
      exact hsame
    · rw [show (w.effect i s inp (.append r)).result = .ok a from congrArg Effect.result heff]
      refine h.write hheld rfl (congrArg (s.log ++ ·) (congrArg Effect.writes heff))
        (fun x hx ↦ ?_) (fun x hx ↦ ?_) fun hm ↦ ⟨hm, ?_, fun y hy ↦ mem_append_left _ hy,
          fun x hx ↦ ⟨w.nonce, r, mem_append_right _ (mem_singleton.2 rfl), hnew x hx⟩⟩
      · rw [hnew x hx]
        trivial
      · rw [hnew x hx]
        exact id
      · rw [length_append]
        exact Nat.add_le_add_left hlen _
  | closeRunBudget => exact hmay.elim
  | insertAlert => exact hmay.elim

theorem exec_proper {inp : BudgetInput} (hmay : m.may W o) :
    ∀ x ∈ (execStatement inp n db o).writes, x.Proper := by
  cases o with
  | insertReservation row =>
    obtain ⟨e, locks, heff⟩ | ⟨locks, heff⟩ := exec_insertReservation inp n db row
    · simp [heff]
    · simp [heff, BudgetWrite.Proper]
  | closeReservation rid status cost at' =>
    obtain ⟨r, locks, new, hsub, heff⟩ := exec_closeReservation inp n db rid status cost at'
    intro x hx
    rw [heff] at hx
    rw [mem_singleton.1 (hsub hx)]
    exact hmay
  | append r =>
    obtain ⟨e, locks, heff⟩ | ⟨a, locks, new, heff, -, hnew⟩ := exec_append inp n db r
    · simp [heff]
    · intro x hx
      rw [heff] at hx
      rw [hnew x hx]
      trivial
  | closeRunBudget => exact hmay.elim
  | insertAlert => exact hmay.elim
  | _ => exact fun _ hx ↦ absurd hx not_mem_nil

theorem exec_inserts {inp : BudgetInput} (h : Reserves W (execStatement inp n db o).writes) :
    ∃ row, o = .insertReservation row ∧
      row.scope = W.scope ∧ (execStatement inp n db o).writes = [.insertReservation row] := by
  obtain ⟨x, hx, hxW⟩ := h
  cases o with
  | insertReservation row =>
    obtain ⟨e, locks, heff⟩ | ⟨locks, heff⟩ := exec_insertReservation inp n db row
    · simp [heff] at hx
    · rw [heff, mem_singleton] at hx
      subst hx
      exact ⟨row, rfl, hxW, by rw [heff]⟩
  | closeReservation rid status cost at' =>
    obtain ⟨r, locks, new, hsub, heff⟩ := exec_closeReservation inp n db rid status cost at'
    rw [heff] at hx
    rw [mem_singleton.1 (hsub hx)] at hxW
    exact hxW.elim
  | append r =>
    obtain ⟨e, locks, heff⟩ | ⟨a, locks, new, heff, -, hnew⟩ := exec_append inp n db r
    · simp [heff] at hx
    · rw [heff] at hx
      rw [hnew x hx] at hxW
      exact hxW.elim
  | closeRunBudget =>
    rw [execStatement] at hx
    split at hx
    · rw [mem_singleton.1 hx] at hxW
      exact hxW.elim
    · exact absurd hx not_mem_nil
  | insertAlert =>
    rw [mem_singleton.1 hx] at hxW
    exact hxW.elim
  | _ => exact absurd hx not_mem_nil

theorem Guarded.exec (h : Guarded W w i s) (hc : s.call = some c) (inp : BudgetInput)
    (k : Res o → Body BudgetResult) (hmay : ((budgetProtocol W).known c).may W o) :
    Guarded W (w.afterExec i s c (w.effect i s inp o) k) i
      (s.advance c (w.effect i s inp o) k) where
  proper x hx := by
    rcases mem_append.1 hx with hx | hx
    · exact h.proper x hx
    · exact exec_proper hmay x hx
  fits hres := by
    have hcall := h.call c hc
    by_cases hnew : Reserves W (w.effect i s inp o).writes
    · obtain ⟨row, rfl, hscope, hwrites⟩ := exec_inserts hnew
      have hmay' := hmay hscope
      refine ⟨held_afterExec_mono _ (hcall.locked hmay'.locked), fits_advance ?_⟩
      rw [show (w.effect i s inp (.insertReservation row)).writes = _ from hwrites]
      exact hcall.fits hmay'
    · have hold : Reserves W s.log := by
        obtain ⟨x, hx, hxW⟩ := hres
        rcases mem_append.1 hx with hx | hx
        · exact ⟨x, hx, hxW⟩
        · exact absurd ⟨x, hx, hxW⟩ hnew
      obtain ⟨hlock, hfits⟩ := h.fits hold
      refine ⟨held_afterExec_mono _ hlock, fits_advance ?_⟩
      exact hfits.mono (usageFor_view ..) (openRows_view_of_not_inserts (exec_proper hmay)
        fun x hx hxW ↦ hnew ⟨x, hx, hxW⟩)
  done r o' hdone hscope hreserved := by
    obtain ⟨x, hx, hxW⟩ := h.done r o' hdone hscope hreserved
    exact ⟨x, mem_append_left _ hx, hxW⟩
  call c' hc' := by
    obtain rfl := some.inj hc'
    have hknown := (budgetProtocol W).known_advance c o (w.effect i s inp o).result
      (k (w.effect i s inp o).result)
    exact (congrArg (InCall W _ i _ · c.log₀) hknown).mpr ((h.call c hc).exec inp k hmay)

theorem Guarded.finish (h : Guarded W w i s) (hc : s.call = some c)
    (hx : ((budgetProtocol W).known c).Ends W c.entry x) :
    Guarded W (w.afterFinish i s c x) i (s.finish c x) where
  proper := h.proper
  fits := h.fits
  done r o hdone hscope hreserved := by
    rcases mem_append.1 hdone with hdone | hdone
    · exact h.done r o hdone hscope hreserved
    · obtain ⟨hentry, hout⟩ := Prod.mk.inj (mem_singleton.1 hdone)
      rw [← hentry, ← hout] at hx
      exact (h.call c hc).inserted (hx.1 hreserved hscope)
  call _ hnone := by cases hnone

theorem eq_nil_or_event {new : List BudgetWrite} {r : AppendRequest} (hlen : new.length ≤ 1)
    (hmem : ∀ x ∈ new, ∃ n, ∃ r' ∈ [r], x = .insertEvent ⟨n, r'⟩) :
    new = [] ∨ ∃ n, new = [.insertEvent ⟨n, r⟩] := by
  cases new with
  | nil => exact .inl rfl
  | cons x rest =>
    obtain ⟨n, r', hr', hx⟩ := hmem x mem_cons_self
    have hrest : rest = [] := length_eq_zero_iff.1 (Nat.le_zero.1 (Nat.le_of_succ_le_succ hlen))
    exact .inr ⟨n, by rw [hx, hrest, mem_singleton.1 hr']⟩

theorem InCall.refused (h : InCall W w i s ((budgetProtocol W).known c) c.log₀)
    (hx : ((budgetProtocol W).known c).Ends W c.entry x) :
    Refused ⟨i, c.entry, x, c.trace, c.log₀, c.view₀, s.log, w.view s⟩ := by
  intro r o hentry hout hreserved
  change c.entry = _ at hentry
  change x = _ at hout
  rw [hentry, hout] at hx
  obtain ⟨hwrote, key, hevents⟩ := hx.2 hreserved
  obtain ⟨new, hlog, hnew⟩ := h.wrote
  obtain ⟨hlen, hmem⟩ := hnew hwrote
  rw [hevents] at hlen hmem
  refine ⟨key, ?_⟩
  rcases eq_nil_or_event hlen hmem with rfl | ⟨n, rfl⟩
  · exact .inl (hlog.trans (append_nil _))
  · exact .inr ⟨n, hlog⟩

/-! ## Every step -/

theorem openRows_afterCommit {j : ℕ} {t : budgetSystem.Session} (hs : Guarded W w i s)
    (ht : Guarded W w j t) (hij : j ≠ i) (hlock : w.Held j (.scope W.scope)) :
    (W.openRows ((w.afterCommit i s).view t)).Sublist (W.openRows (w.view t)) := by
  have hnone : ∀ x ∈ s.log, ¬BudgetWrite.Inserts W x := fun x hx hxW ↦
    hij (some.inj (hlock.symm.trans (hs.fits ⟨x, hx, hxW⟩).1))
  exact openRows_view_sublist ht.proper (openRows_view_of_not_inserts hs.proper hnone)

theorem Sound.getD (h : Sound W w) (i : ℕ) : Guarded W w i ((w.sessions i).getD {}) := by
  cases hi : w.sessions i with
  | none => exact .fresh
  | some s => exact h.session i s hi

theorem InCall.start (e : BudgetCall) (hfixed : Fixed W w (.call i e)) :
    InCall W w' i s (.start e) s.log where
  fixed htarget := by
    cases e with
    | tryReserve => exact hfixed (some.inj htarget)
    | settle => cases htarget
    | release => cases htarget
  locked hl := by cases e <;> cases hl
  used _ hu := by cases e <;> cases hu
  reserved _ hr := by cases e <;> cases hr
  inserted hi := by cases e <;> cases hi
  wrote := ⟨[], (append_nil _).symm, fun _ ↦
    ⟨Nat.zero_le _, fun _ hx ↦ absurd hx not_mem_nil⟩⟩

theorem Guarded.start (h : Guarded W w i s) {e : BudgetCall} (hfixed : Fixed W w (.call i e)) :
    Guarded W (w.afterCall i s e) i (s.start e (w.view s)) where
  proper := h.proper
  fits := h.fits
  done := h.done
  call c hc := by
    obtain rfl := some.inj hc
    exact .start e hfixed

theorem keeps (W : Watch) : (budgetProtocol W).Keeps (Fixed W) (Sound W) where
  ok w i inp s c o k _ _ hfixed _ _ _ _ _ := by
    cases o with
    | now => exact hfixed
    | _ => trivial
  exec w i inp s c o k _ hI _ hs hc _ hmay hfree _ := by
    refine ⟨fun j t ht ↦ ?_, hI.refused⟩
    by_cases hij : j = i
    · subst hij
      obtain rfl : s.advance c (w.effect j s inp o) k = t := by simpa [World.afterExec] using ht
      exact (hI.session j s hs).exec hc inp k hmay
    · rw [World.afterExec, World.setSession_of_ne _ hij] at ht
      exact (hI.session j t ht).congr (fun _ ↦ (World.held_afterExec_of_ne hij hfree).2) rfl
  call w i e s _ hI hfixed hs _ _ := by
    refine ⟨fun j t ht ↦ ?_, hI.refused⟩
    by_cases hij : j = i
    · subst hij
      obtain rfl : s.start e (w.view s) = t := by simpa [World.afterCall] using ht
      exact (hs ▸ hI.getD j).start hfixed
    · rw [World.afterCall, World.setSession_of_ne _ hij] at ht
      exact (hI.session j t ht).congr (fun _ h ↦ h) rfl
  finish w i s c x _ hI _ hs hc _ hx := by
    have hguarded := hI.session i s hs
    refine ⟨fun j t ht ↦ ?_, fun f hf ↦ ?_⟩
    · by_cases hij : j = i
      · subst hij
        obtain rfl : s.finish c x = t := by simpa [World.afterFinish] using ht
        exact hguarded.finish hc hx
      · rw [World.afterFinish, World.setSession_of_ne _ hij] at ht
        exact (hI.session j t ht).congr (fun _ h ↦ h) rfl
    · rcases mem_append.1 hf with hf | hf
      · exact hI.refused f hf
      · rw [mem_singleton.1 hf]
        exact (hguarded.call c hc).refused hx
  commit w i s _ hI _ hs _ _ := by
    refine ⟨fun j t ht ↦ ?_, hI.refused⟩
    have hij : j ≠ i := by
      rintro rfl
      simp [World.afterCommit, World.close] at ht
    rw [World.afterCommit, World.close, World.setSession_of_ne _ hij] at ht
    have hguarded := hI.session j t ht
    exact hguarded.mono (fun _ ↦ (World.held_close_of_ne hij).2)
      (usageFor_view s.log W.scope W.day) (openRows_afterCommit (hI.session i s hs) hguarded hij)
  rollback w i _ hI _ := by
    refine ⟨fun j t ht ↦ ?_, hI.refused⟩
    have hij : j ≠ i := by
      rintro rfl
      simp [World.close] at ht
    rw [World.close, World.setSession_of_ne _ hij] at ht
    exact (hI.session j t ht).congr (fun _ ↦ (World.held_close_of_ne hij).2) rfl

end Steps

/-- No session is open, no lock is held and no call has ended. -/
structure Opening (w : budgetSystem.World) : Prop where
  sessions : ∀ i, w.sessions i = none
  locks : ∀ k, w.locks k = none
  calls : w.calls = []

theorem Opening.sound {w : budgetSystem.World} (h : Opening w) : Sound W w where
  session i _ hs := absurd (hs.symm.trans (h.sessions i)) nofun
  refused _ hf := absurd (h.calls ▸ hf) not_mem_nil

/-- **A reservation does not oversubscribe its scope.** Any sessions reserve, settle and release in
any scopes and interleave in any way; the calls of `try_reserve` for one scope name the same limit,
and the clock stays in one day. Whenever a session that was granted a reservation of the scope
commits, what is used and what is reserved on that day and still open are not over the limit. A
refused call writes nothing but its own Event. -/
theorem reservation_never_oversubscribes (W : Watch) {w₀ w : budgetSystem.World} (h₀ : Opening w₀)
    (hw : Run (Fixed W) w₀ w) : (∀ i s w', w.sessions i = some s → w.step (.commit i) = some w' →
      ∀ (r : TryReserve) (o : ReservationOutcome),
        (BudgetCall.tryReserve r, ok (BudgetResult.outcome o)) ∈ s.done →
        r.scope = W.scope → o.reserved = true → W.Fits w'.store) ∧ ∀ f ∈ w.calls, Refused f := by
  obtain ⟨-, -, hsound⟩ := (keeps W).run h₀.sessions h₀.locks h₀.sound hw
  refine ⟨fun i s w' hs hstep r o hdone hscope hreserved ↦ ?_, hsound.refused⟩
  have hguarded := hsound.session i s hs
  obtain ⟨t, rfl, ht⟩ : ∃ t, w' = w.afterCommit i t ∧ w.sessions i = some t := by
    rcases World.step_cases hstep with ⟨_, _, _, h, -⟩ | ⟨_, _, _, _, _, _, h, -⟩ |
      ⟨_, _, _, _, h, -⟩ | ⟨i', t, h, ht, -, -, rfl⟩ | ⟨_, h, -⟩
    · cases h
    · cases h
    · cases h
    · cases h
      exact ⟨t, rfl, ht⟩
    · cases h
  obtain rfl : s = t := some.inj (hs.symm.trans ht)
  exact (hguarded.fits (hguarded.done r o hdone hscope hreserved)).2

namespace Sample

def watched : Watch := ⟨⟨.agentDaily, "a1"⟩, 0, 100, []⟩

def asks (estimate : ℤ) : TryReserve where
  workspaceId := "0a0a0a0a-0000-4000-8000-00000000000a"
  actorAccountId := "acc1"
  scope := watched.scope
  limitCostUnits := 100
  estimate := estimate
  idempotencyKey := some "k1"

def used60 : BudgetTables where
  usage := [⟨some "a1", none, none, 60, 0⟩]

def opening : budgetSystem.World where
  store := used60
  aux := ()

theorem opening_opening : Opening opening := ⟨fun _ ↦ rfl, fun _ ↦ rfl, rfl⟩

def statements (i n : ℕ) : List budgetSystem.Label :=
  List.replicate n (.exec i { uuidHex := "00112233445566778899" })

def refusedLabels : List budgetSystem.Label :=
  .call 1 (.tryReserve (asks 50)) :: statements 1 6 ++ [.finish 1]

def grantedLabels : List budgetSystem.Label :=
  refusedLabels ++ [.commit 1] ++ .call 0 (.tryReserve (asks 30)) :: statements 0 9 ++ [.finish 0]

def fixedIn (_ : budgetSystem.World) : budgetSystem.Label → Bool
  | .call _ (.tryReserve r) => r.limitCostUnits = 100 && r.runIds = []
  | .exec _ inp => inDay 0 (inp : BudgetInput).now
  | _ => true

theorem fixed_of_fixedIn {w : budgetSystem.World} {l : budgetSystem.Label}
    (h : fixedIn w l = true) : Fixed watched w l := by
  cases l with
  | call i e =>
    cases e with
    | tryReserve =>
      rw [fixedIn, Bool.and_eq_true, decide_eq_true_eq, decide_eq_true_eq] at h
      exact fun _ ↦ h
    | _ => trivial
  | exec => exact h
  | _ => trivial

/-- Whether a call of a session was granted its reservation. -/
def granted : BudgetCall × Except BudgetError BudgetResult → Bool
  | (.tryReserve r, .ok (.outcome o)) => r.scope = watched.scope && o.reserved
  | _ => false

def writes (f : budgetSystem.Finished) : Bool :=
  match f.entry, f.outcome with
  | .tryReserve _, .ok (.outcome o) => !o.reserved && f.log₁.length != f.log₀.length
  | _, _ => false

end Sample

open Sample

/-- One call is refused and the next one, for less, is granted. -/
theorem reservation_never_oversubscribes_thirty : ∃ w w' : budgetSystem.World,
    w.calls.length = 2 ∧ w.step (.commit 0) = some w' ∧ watched.reserved w'.store = 30 ∧
      watched.Fits w'.store ∧ ∀ f ∈ w.calls, Refused f := by
  have hrun : (opening.runLabels fixedIn grantedLabels).any
      (fun w ↦ w.calls.length = 2 ∧ (w.sessions 0).any (·.done.any Sample.granted) = true ∧
        (w.step (.commit 0)).any (watched.reserved ·.store = 30) = true) = true := by
    decide +kernel
  obtain ⟨w, hw, hfacts⟩ := (Option.any_eq_true _ _).1 hrun
  simp only [Bool.decide_and, Bool.and_eq_true, decide_eq_true_eq] at hfacts
  obtain ⟨hcalls, hgranted, hcommit⟩ := hfacts
  obtain ⟨w', hw', hreserved⟩ := (Option.any_eq_true _ _).1 hcommit
  obtain ⟨s, hs, hdone⟩ := (Option.any_eq_true _ _).1 hgranted
  obtain ⟨⟨e, x⟩, hmem, hentry⟩ := List.any_eq_true.1 hdone
  have hreached : Run (Fixed watched) opening w :=
    .of_runLabels (fun _ _ ↦ fixed_of_fixedIn) .refl hw
  obtain ⟨hfits, hrefused⟩ := reservation_never_oversubscribes watched opening_opening hreached
  refine ⟨w, w', hcalls, hw', of_decide_eq_true hreserved, ?_, hrefused⟩
  cases e with
  | tryReserve r =>
    cases x with
    | error => cases hentry
    | ok a =>
      cases a with
      | outcome o =>
        simp only [Sample.granted, Bool.and_eq_true, decide_eq_true_eq] at hentry
        exact hfits 0 s w' hs hw' r o hmem hentry.1 hentry.2
      | _ => cases hentry
  | _ => cases hentry

/-- **A refused call does change something**: it appends an Event that says so. -/
theorem refused_appends : ¬∀ w : budgetSystem.World, Run (Fixed watched) opening w →
      ∀ f ∈ w.calls, ∀ (r : TryReserve) (o : ReservationOutcome), f.entry = .tryReserve r →
        f.outcome = .ok (.outcome o) → o.reserved = false → f.log₁ = f.log₀ := by
  have hrun : (opening.runLabels fixedIn refusedLabels).any (·.calls.any writes) = true := by
    decide +kernel
  obtain ⟨w, hw, hwrites⟩ := (Option.any_eq_true _ _).1 hrun
  obtain ⟨f, hf, hwrite⟩ := List.any_eq_true.1 hwrites
  intro h
  have hsame := h w (.of_runLabels (fun _ _ ↦ fixed_of_fixedIn) .refl hw) f hf
  rw [writes] at hwrite
  split at hwrite
  · rename_i r o hentry hout
    rw [Bool.and_eq_true, Bool.not_eq_true', bne_iff_ne] at hwrite
    exact hwrite.2 (congrArg List.length (hsame r o hentry hout hwrite.1))
  · cases hwrite

end AgentColab.Usage
