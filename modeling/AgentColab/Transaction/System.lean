import AgentColab.Transaction.Database

/-!
# Interleaved transactions

A `System` is a database together with the calls its clients can make. Every client runs a
transaction: a sequence of calls, each the execution of a body, and then a commit or a rollback.
One step of the world is one statement of one session.

A statement waits while another session holds a key it needs: the session just cannot move. A
deadlock, a crash and a failed connection are the label `rollback`, which is possible at any time.
-/

namespace Transaction

open Option

/-- **A database and its clients.** `aux` is state that lives outside the database and survives a
rollback, such as what a worker process holds in memory. -/
structure System where
  Op : Type
  Res : Op → Type
  Err : Type
  Ret : Type
  db : Database Res
  Entry : Type
  /-- The body of a call. -/
  body : Entry → Prog Res Err Ret
  Aux : Type
  /-- Whether a session that has finished these calls may make this one. -/
  mayCall : Aux → List (Entry × Except Err Ret) → Entry → Bool
  /-- Whether a session may commit after these calls. -/
  mayCommit : List (Entry × Except Err Ret) → Bool
  /-- The effect of starting a call on the outside state. -/
  onCall : Aux → Entry → Aux
  /-- The effect of committing these calls on the outside state. -/
  onCommit : Aux → List (Entry × Except Err Ret) → Aux

namespace System

variable (Y : System)

/-- A finished call, with the outcome the caller got. -/
abbrev Done := Y.Entry × Except Y.Err Y.Ret

structure Stmt where
  op : Y.Op
  res : Y.Res op

structure Call where
  entry : Y.Entry
  rest : Prog Y.Res Y.Err Y.Ret
  /-- The statements executed so far, the first one first. -/
  trace : List Y.Stmt
  /-- The session's redo log and view when the call started. -/
  log₀ : List Y.db.Write
  view₀ : Y.db.Store

structure Session where
  done : List Y.Done := []
  log : List Y.db.Write := []
  call : Option Y.Call := none

/-- The record of a finished call: redo log and view at its start and at its end. -/
structure Finished where
  session : ℕ
  entry : Y.Entry
  outcome : Except Y.Err Y.Ret
  trace : List Y.Stmt
  log₀ : List Y.db.Write
  view₀ : Y.db.Store
  log₁ : List Y.db.Write
  view₁ : Y.db.Store

/-- The committed store, the open transactions and their locks. A key is locked by at most one
session because `locks` is a function. -/
structure World where
  store : Y.db.Store
  aux : Y.Aux
  sessions : ℕ → Option Y.Session := fun _ ↦ none
  locks : Y.db.Key → Option ℕ := fun _ ↦ none
  nonce : ℕ := 0
  calls : List Y.Finished := []

/-- One step: start a call, execute one statement, return to the caller, commit, roll back. -/
inductive Label where
  | call (i : ℕ) (e : Y.Entry)
  | exec (i : ℕ) (inp : Y.db.Input)
  | finish (i : ℕ)
  | commit (i : ℕ)
  | rollback (i : ℕ)

variable {Y}

namespace World

/-- The committed store as session `s` sees it. -/
def view (w : Y.World) (s : Y.Session) : Y.db.Store := Y.db.view w.store s.log

/-- Whether a session other than `i` holds the key. -/
def heldByOther (w : Y.World) (i : ℕ) (k : Y.db.Key) : Bool :=
  match w.locks k with
  | none => false
  | some j => j != i

variable {i : ℕ}

theorem heldByOther_eq_false {w : Y.World} {k : Y.db.Key} :
    w.heldByOther i k = false ↔ ∀ j, w.locks k = some j → j = i := by
  rw [heldByOther]
  cases w.locks k with
  | none => simp
  | some => simp

/-- The effect of session `i` executing statement `o` now. -/
def effect (w : Y.World) (i : ℕ) (s : Y.Session) (inp : Y.db.Input) (o : Y.Op) :
    Effect Y.db.Write Y.db.Key (Y.Res o) :=
  Y.db.exec inp w.nonce (w.heldByOther i) (w.view s) o

/-- Replace session `i`. -/
def setSession (w : Y.World) (i : ℕ) (s : Option Y.Session) : Y.World :=
  { w with sessions := Function.update w.sessions i s }

/-- Give up the locks of session `i` and forget it. -/
def close (w : Y.World) (i : ℕ) : Y.World :=
  { w.setSession i none with locks := fun k ↦ if w.locks k = some i then none else w.locks k }

@[simp] theorem setSession_store (w : Y.World) (i : ℕ) (s : Option Y.Session) :
    (w.setSession i s).store = w.store := rfl

@[simp] theorem setSession_same (w : Y.World) (i : ℕ) (s : Option Y.Session) :
    (w.setSession i s).sessions i = s := Function.update_self ..

theorem setSession_of_ne (w : Y.World) {j : ℕ} (h : j ≠ i) (s : Option Y.Session) :
    (w.setSession i s).sessions j = w.sessions j := Function.update_of_ne h ..

end World

/-- Session `s` at the start of a call. -/
def Session.start (s : Y.Session) (e : Y.Entry) (v : Y.db.Store) : Y.Session :=
  { s with call := some ⟨e, Y.body e, [], s.log, v⟩ }

/-- Session `s` after a statement of its call `c`. -/
def Session.advance (s : Y.Session) (c : Y.Call) {o : Y.Op}
    (eff : Effect Y.db.Write Y.db.Key (Y.Res o)) (k : Y.Res o → Prog Y.Res Y.Err Y.Ret) :
    Y.Session :=
  { s with
    log := s.log ++ eff.writes
    call := some { c with rest := k eff.result, trace := c.trace ++ [⟨o, eff.result⟩] } }

/-- Session `s` after its call `c` has ended. -/
def Session.finish (s : Y.Session) (c : Y.Call) (x : Except Y.Err Y.Ret) : Y.Session :=
  { s with done := s.done ++ [(c.entry, x)], call := none }

/-- The outcome of a body that has nothing left to execute. -/
def outcome? : Prog Y.Res Y.Err Y.Ret → Option (Except Y.Err Y.Ret)
  | .ret a => some (.ok a)
  | .raise e => some (.error e)
  | .call _ _ => none

namespace World

/-- The world after session `i` starts a call. -/
def afterCall (w : Y.World) (i : ℕ) (s : Y.Session) (e : Y.Entry) : Y.World :=
  { w.setSession i (some (s.start e (w.view s))) with aux := Y.onCall w.aux e }

/-- The world after session `i` executes a statement. -/
def afterExec (w : Y.World) (i : ℕ) (s : Y.Session) (c : Y.Call) {o : Y.Op}
    (eff : Effect Y.db.Write Y.db.Key (Y.Res o)) (k : Y.Res o → Prog Y.Res Y.Err Y.Ret) : Y.World :=
  { w.setSession i (some (s.advance c eff k)) with
    locks := fun key ↦ if key ∈ eff.locks then some i else w.locks key
    nonce := w.nonce + 1 }

/-- The world after the call of session `i` has returned or raised. -/
def afterFinish (w : Y.World) (i : ℕ) (s : Y.Session) (c : Y.Call)
    (x : Except Y.Err Y.Ret) : Y.World :=
  { w.setSession i (some (s.finish c x)) with
    calls := w.calls ++ [⟨i, c.entry, x, c.trace, c.log₀, c.view₀, s.log, w.view s⟩] }

/-- The world after session `i` commits. -/
def afterCommit (w : Y.World) (i : ℕ) (s : Y.Session) : Y.World :=
  { w.close i with store := w.view s, aux := Y.onCommit w.aux s.done }

def step (w : Y.World) : Y.Label → Option Y.World
  | .call i e =>
    let s := (w.sessions i).getD {}
    if s.call.isNone && Y.mayCall w.aux s.done e then some (w.afterCall i s e) else none
  | .exec i inp =>
    match w.sessions i with
    | none => none
    | some s =>
      match s.call with
      | none => none
      | some c =>
        match c.rest with
        | .call o k =>
          let eff := w.effect i s inp o
          if eff.locks.all fun key ↦ !w.heldByOther i key then some (w.afterExec i s c eff k)
          else none
        | _ => none
  | .finish i =>
    match w.sessions i with
    | none => none
    | some s =>
      match s.call with
      | none => none
      | some c => (outcome? c.rest).map (w.afterFinish i s c)
  | .commit i =>
    match w.sessions i with
    | none => none
    | some s => if s.call.isNone && Y.mayCommit s.done then some (w.afterCommit i s) else none
  | .rollback i => some (w.close i)

/-- **Inversion.** Everything a step can do, with the guards it has passed. -/
theorem step_cases {w w' : Y.World} {l : Y.Label} (h : w.step l = some w') :
    (∃ i e s, l = .call i e ∧ (w.sessions i).getD {} = s ∧ s.call = none ∧
      Y.mayCall w.aux s.done e = true ∧ w' = w.afterCall i s e) ∨
    (∃ i inp s c o k, l = .exec i inp ∧ w.sessions i = some s ∧ s.call = some c ∧
      c.rest = .call o k ∧ (∀ key ∈ (w.effect i s inp o).locks, w.heldByOther i key = false) ∧
      w' = w.afterExec i s c (w.effect i s inp o) k) ∨
    (∃ i s c x, l = .finish i ∧ w.sessions i = some s ∧ s.call = some c ∧
      outcome? c.rest = some x ∧ w' = w.afterFinish i s c x) ∨
    (∃ i s, l = .commit i ∧ w.sessions i = some s ∧ s.call = none ∧
      Y.mayCommit s.done = true ∧ w' = w.afterCommit i s) ∨
    (∃ i, l = .rollback i ∧ w' = w.close i) := by
  cases l with
  | call i e =>
    simp only [step, Bool.and_eq_true, isNone_iff_eq_none, ite_none_right_eq_some, some.injEq] at h
    exact .inl ⟨i, e, _, rfl, rfl, h.1.1, h.1.2, h.2.symm⟩
  | exec i inp =>
    simp only [step] at h
    cases hs : w.sessions i with
    | none => simp [hs] at h
    | some s =>
      cases hc : s.call with
      | none => simp [hs, hc] at h
      | some c =>
        cases hr : c.rest with
        | ret => simp [hs, hc, hr] at h
        | raise => simp [hs, hc, hr] at h
        | call o k =>
          simp only [hs, hc, hr, List.all_eq_true, Bool.not_eq_true',
            ite_none_right_eq_some, some.injEq] at h
          exact .inr (.inl ⟨i, inp, s, c, o, k, rfl, hs, hc, hr, h.1, h.2.symm⟩)
  | finish i =>
    simp only [step] at h
    cases hs : w.sessions i with
    | none => simp [hs] at h
    | some s =>
      cases hc : s.call with
      | none => simp [hs, hc] at h
      | some c =>
        simp only [hs, hc, map_eq_some_iff] at h
        obtain ⟨x, hx, rfl⟩ := h
        exact .inr (.inr (.inl ⟨i, s, c, x, rfl, hs, hc, hx, rfl⟩))
  | commit i =>
    simp only [step] at h
    cases hs : w.sessions i with
    | none => simp [hs] at h
    | some s =>
      simp only [hs, Bool.and_eq_true, isNone_iff_eq_none, ite_none_right_eq_some, some.injEq] at h
      exact .inr (.inr (.inr (.inl ⟨i, s, rfl, hs, h.1.1, h.1.2, h.2.symm⟩)))
  | rollback i =>
    simp only [step, some.injEq] at h
    exact .inr (.inr (.inr (.inr ⟨i, rfl, h.symm⟩)))

end World

/-! ## Runs -/

/-- A run from `w₀` all of whose steps satisfy `C`, ending in the given world. -/
inductive Run (C : Y.World → Y.Label → Prop) (w₀ : Y.World) : Y.World → Prop where
  | refl : Run C w₀ w₀
  | step {w w' : Y.World} (l : Y.Label) : Run C w₀ w → C w l → w.step l = some w' → Run C w₀ w'

/-- Execute a list of labels, as long as each passes the check. -/
def World.runLabels (ok : Y.World → Y.Label → Bool) (w : Y.World) : List Y.Label → Option Y.World
  | [] => some w
  | l :: ls => if ok w l then (w.step l).bind fun w' ↦ w'.runLabels ok ls else none

variable {C : Y.World → Y.Label → Prop} {w w' w₀ : Y.World}

theorem Run.of_runLabels {ok : Y.World → Y.Label → Bool} (hok : ∀ v l, ok v l = true → C v l)
    {ls : List Y.Label} (hw : Run C w₀ w) (h : w.runLabels ok ls = some w') : Run C w₀ w' := by
  induction ls generalizing w with
  | nil =>
    cases h
    exact hw
  | cons l _ ih =>
    rw [World.runLabels, ite_none_right_eq_some, bind_eq_some_iff] at h
    obtain ⟨hl, v, hv, h'⟩ := h
    exact ih (.step l hw (hok _ _ hl) hv) h'

theorem Run.trans (hw : Run C w₀ w) (hw' : Run C w w') : Run C w₀ w' := by
  induction hw' with
  | refl => exact hw
  | step l _ hl hs ih => exact .step l ih hl hs

/-- **What no write undoes stays so**: in the committed store, and in the view of every call that
ends later. -/
theorem Run.stable {Φ : Y.db.Store → Prop} (hΦ : ∀ s x, Φ s → Φ (Y.db.apply s x)) (hw : Run C w w')
    (h : Φ w.store) : Φ w'.store ∧ ∃ new, w'.calls = w.calls ++ new ∧ ∀ f ∈ new, Φ f.view₁ := by
  have hview : ∀ (log : List Y.db.Write) (s : Y.db.Store), Φ s → Φ (Y.db.view s log) := by
    intro log
    induction log with
    | nil => exact fun _ hs ↦ hs
    | cons x _ ih => exact fun s hs ↦ ih _ (hΦ s x hs)
  induction hw with
  | refl => exact ⟨h, [], (List.append_nil _).symm, nofun⟩
  | step l _ _ hs ih =>
    obtain ⟨hstore, new, hcalls, hnew⟩ := ih
    obtain ⟨i, e, s, -, -, -, -, rfl⟩ | ⟨i, inp, s, c, o, k, -, -, -, -, -, rfl⟩ |
      ⟨i, s, c, x, -, -, -, -, rfl⟩ | ⟨i, s, -, -, -, -, rfl⟩ | ⟨i, -, rfl⟩ := World.step_cases hs
    · exact ⟨hstore, new, hcalls, hnew⟩
    · exact ⟨hstore, new, hcalls, hnew⟩
    · rename_i v _ _
      refine ⟨hstore, new ++ [⟨i, c.entry, x, c.trace, c.log₀, c.view₀, s.log, v.view s⟩], ?_,
        fun f hf ↦ ?_⟩
      · exact (congrArg (· ++ _) hcalls).trans (List.append_assoc ..)
      · rcases List.mem_append.1 hf with hf | hf
        · exact hnew f hf
        · rw [List.mem_singleton.1 hf]
          exact hview _ _ hstore
    · exact ⟨hview _ _ hstore, new, hcalls, hnew⟩
    · exact ⟨hstore, new, hcalls, hnew⟩

theorem Run.mono {C' : Y.World → Y.Label → Prop} (hC : ∀ w l, C w l → C' w l) (hw : Run C w₀ w) :
    Run C' w₀ w := by
  induction hw with
  | refl => exact .refl
  | step l _ hl hs ih => exact .step l ih (hC _ _ hl) hs

end System

end Transaction
