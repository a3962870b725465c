import AgentColab.Transaction.Program
import Mathlib.Data.List.Basic

/-!
# Databases whose transactions read committed

A `Database` gives the meaning of one statement. Executing it against a *view* yields a result, a
list of writes and the locks the statement takes. A transaction keeps its writes in a redo log, and
its view is the committed store with that log replayed on top. This is `READ COMMITTED`.

Each write names the keys it touches and a statement takes their locks to the end of the
transaction, so the committed value below an open write cannot change. `Cells`: the cell of a key
depends only on the committed cell and on the log, and writes of other keys do not reach it.
-/

namespace Transaction

/-- What executing one statement amounts to. -/
structure Effect (Write Key R : Type) where
  /-- The value handed to the transaction. -/
  result : R
  /-- The changes, in order. -/
  writes : List Write := []
  /-- The locks taken, held to the end of the transaction. -/
  locks : List Key := []

/-- **A database.** `exec` receives the environment's input, a number never used before, the keys
locked by others, the view and the statement. The law says that no key is written unlocked. -/
structure Database {Op : Type} (Res : Op → Type) where
  Store : Type
  Write : Type
  Key : Type
  Input : Type
  decEqKey : DecidableEq Key
  apply : Store → Write → Store
  keys : Write → List Key
  exec : Input → ℕ → (Key → Bool) → Store → (o : Op) → Effect Write Key (Res o)
  locked : ∀ inp n held v o, ∀ x ∈ (exec inp n held v o).writes, ∀ k ∈ keys x,
    k ∈ (exec inp n held v o).locks

attribute [instance] Database.decEqKey

namespace Database

variable {Op : Type} {Res : Op → Type} {ε α β : Type} (D : Database Res)

/-- The committed store as a transaction with this redo log sees it. -/
def view (s : D.Store) (log : List D.Write) : D.Store := log.foldl D.apply s

@[simp] theorem view_nil (s : D.Store) : D.view s [] = s := rfl

@[simp] theorem view_append (s : D.Store) (l l' : List D.Write) :
    D.view s (l ++ l') = D.view (D.view s l) l' := List.foldl_append

@[simp] theorem view_cons (s : D.Store) (x : D.Write) (l : List D.Write) :
    D.view s (x :: l) = D.view (D.apply s x) l := rfl

/-! ## Cells -/

/-- **A part of the store that is addressed by key.** A write that does not touch a cell's key
leaves the cell alone, and what a write makes of a cell depends on that cell only. -/
structure Cells (Idx Cell : Type) where
  key : Idx → D.Key
  get : D.Store → Idx → Cell
  frame : ∀ s x i, key i ∉ D.keys x → get (D.apply s x) i = get s i
  congr : ∀ s s' x i, get s i = get s' i → get (D.apply s x) i = get (D.apply s' x) i

variable {D} {Idx Cell : Type} (C : D.Cells Idx Cell)

variable {s : D.Store} {i : Idx}

theorem Cells.get_view_of_untouched {log : List D.Write} (h : ∀ x ∈ log, C.key i ∉ D.keys x) :
    C.get (D.view s log) i = C.get s i := by
  induction log generalizing s with
  | nil => rfl
  | cons x _ ih =>
    rw [view_cons, ih fun y hy ↦ h y (List.mem_cons_of_mem x hy),
      C.frame _ _ _ (h x List.mem_cons_self)]

theorem Cells.get_view_congr {s' : D.Store} (h : C.get s i = C.get s' i) (log : List D.Write) :
    C.get (D.view s log) i = C.get (D.view s' log) i := by
  induction log generalizing s s' with
  | nil => exact h
  | cons x _ ih => exact ih (C.congr _ _ x i h)

/-- The writes of `log'` that another transaction commits do not show through at a cell whose key
they do not touch. -/
theorem Cells.get_view_view {log' : List D.Write} (h : ∀ x ∈ log', C.key i ∉ D.keys x)
    (log : List D.Write) : C.get (D.view (D.view s log') log) i = C.get (D.view s log) i :=
  C.get_view_congr (C.get_view_of_untouched h) log

end Database

end Transaction
