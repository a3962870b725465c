import Mathlib.Logic.Basic
import Mathlib.Tactic.SimpRw

/-!
# Programs that call a database one statement at a time

A transaction body is a tree: it returns, raises, or calls one statement and goes on with the
statement's result. The tree says nothing about how statements are executed.

A *monitor* keeps what a body has been told: it is updated by each statement and its result, and
says which statements may be issued and which results are possible. `Prog.Conforms` checks a body
against a monitor without mentioning a store. The rules for `bind` and `tryCatch` are equivalences,
so a body is checked one function at a time.
-/

namespace Transaction

/-- A transaction body over statements `Op` with results `Res`: it returns a value, raises an
error, or issues one statement and continues with its result. -/
inductive Prog {Op : Type} (Res : Op → Type) (ε α : Type) : Type where
  | ret (a : α)
  | raise (e : ε)
  | call (o : Op) (k : Res o → Prog Res ε α)

namespace Prog

variable {Op : Type} {Res : Op → Type} {ε α β γ : Type}

def bind (p : Prog Res ε α) (f : α → Prog Res ε β) : Prog Res ε β :=
  match p with
  | ret a => f a
  | raise e => raise e
  | call o k => call o fun r ↦ (k r).bind f

/-- An exception handler. The statements issued before the error stay issued. -/
def tryCatch (p : Prog Res ε α) (h : ε → Prog Res ε α) : Prog Res ε α :=
  match p with
  | ret a => ret a
  | raise e => h e
  | call o k => call o fun r ↦ (k r).tryCatch h

def issue (o : Op) : Prog Res ε (Res o) := call o ret

instance : Monad (Prog Res ε) where
  pure := ret
  bind := bind

instance : MonadExceptOf ε (Prog Res ε) where
  throw := raise
  tryCatch := tryCatch

@[simp] theorem pure_eq (a : α) : (pure a : Prog Res ε α) = ret a := rfl

@[simp] theorem throw_eq (e : ε) : (throw e : Prog Res ε α) = raise e := rfl

@[simp] theorem bind_eq (p : Prog Res ε α) (f : α → Prog Res ε β) : p >>= f = p.bind f := rfl

@[simp] theorem ret_bind (a : α) (f : α → Prog Res ε β) : (ret a).bind f = f a := rfl

@[simp] theorem raise_bind (e : ε) (f : α → Prog Res ε β) : (raise e).bind f = raise e := rfl

@[simp] theorem call_bind (o : Op) (k : Res o → Prog Res ε α) (f : α → Prog Res ε β) :
    (call o k).bind f = call o fun r ↦ (k r).bind f := rfl

theorem bind_assoc (p : Prog Res ε α) (f : α → Prog Res ε β) (g : β → Prog Res ε γ) :
    (p.bind f).bind g = p.bind fun a ↦ (f a).bind g := by
  induction p with
  | ret => rfl
  | raise => rfl
  | call o k ih => exact congrArg (call o) (funext ih)

@[simp] theorem ret_tryCatch (a : α) (h : ε → Prog Res ε α) : (ret a).tryCatch h = ret a := rfl

@[simp] theorem raise_tryCatch (e : ε) (h : ε → Prog Res ε α) :
    (raise e : Prog Res ε α).tryCatch h = h e := rfl

/-- Run a body on every element, in order, for its effect only. -/
def forEach (xs : List β) (f : β → Prog Res ε Unit) : Prog Res ε Unit :=
  match xs with
  | [] => ret ()
  | x :: xs => (f x).bind fun _ ↦ forEach xs f

/-- Run a body on every element, in order, and keep the results. -/
def collect (xs : List β) (f : β → Prog Res ε α) : Prog Res ε (List α) :=
  match xs with
  | [] => ret []
  | x :: xs => (f x).bind fun a ↦ (collect xs f).bind fun as ↦ ret (a :: as)

end Prog

/-! ## Monitors -/

/-- **What a body knows.** `next` updates the knowledge by a statement and its result, `may` says
which statements may be issued, and `ok` says which results the body can be handed. -/
structure Monitor {Op : Type} (Res : Op → Type) (σ : Type) where
  may : σ → Op → Prop
  ok : σ → (o : Op) → Res o → Prop
  next : σ → (o : Op) → Res o → σ

namespace Prog

variable {Op : Type} {Res : Op → Type} {ε α β σ : Type} {M : Monitor Res σ}

/-- A body conforms to a monitor when every statement it issues may be issued and every way it
can end satisfies `Q`, whatever possible results it is handed. -/
def Conforms (M : Monitor Res σ) (Q : Except ε α → σ → Prop) : Prog Res ε α → σ → Prop
  | ret a, m => Q (.ok a) m
  | raise e, m => Q (.error e) m
  | call o k, m => M.may m o ∧ ∀ r, M.ok m o r → (k r).Conforms M Q (M.next m o r)

variable {Q Q' : Except ε α → σ → Prop}

@[simp] theorem conforms_ret (a : α) (m : σ) :
    (ret a : Prog Res ε α).Conforms M Q m ↔ Q (.ok a) m := Iff.rfl

@[simp] theorem conforms_raise (e : ε) (m : σ) :
    (raise e : Prog Res ε α).Conforms M Q m ↔ Q (.error e) m := Iff.rfl

@[simp] theorem conforms_call (o : Op) (k : Res o → Prog Res ε α) (m : σ) :
    (call o k).Conforms M Q m ↔
      M.may m o ∧ ∀ r, M.ok m o r → (k r).Conforms M Q (M.next m o r) := Iff.rfl

variable {p : Prog Res ε α} {m : σ} {f : α → Prog Res ε β} {a : α}

theorem Conforms.mono (hp : p.Conforms M Q m) (hQ : ∀ x m', Q x m' → Q' x m') :
    p.Conforms M Q' m := by
  induction p generalizing m with
  | ret => exact hQ _ _ hp
  | raise => exact hQ _ _ hp
  | call o k ih => exact ⟨hp.1, fun r hr ↦ ih r (hp.2 r hr)⟩

/-- The condition that the first half of a `bind` has to establish. -/
def bindPost (M : Monitor Res σ) (Q : Except ε β → σ → Prop) (f : α → Prog Res ε β) :
    Except ε α → σ → Prop
  | .ok a, m => (f a).Conforms M Q m
  | .error e, m => Q (.error e) m

@[simp] theorem bindPost_ok {Q : Except ε β → σ → Prop} :
    bindPost M Q f (.ok a) m = (f a).Conforms M Q m := rfl

@[simp] theorem conforms_bind {Q : Except ε β → σ → Prop} :
    (p.bind f).Conforms M Q m ↔ p.Conforms M (bindPost M Q f) m := by
  induction p generalizing m with
  | ret => rfl
  | raise => rfl
  | call o k ih => exact and_congr_right fun _ ↦ forall_congr' fun r ↦ imp_congr_right fun _ ↦ ih r

/-- The rule for `bind`, in the form in which a `do` block is elaborated. -/
theorem conforms_do {Q : Except ε β → σ → Prop} (h : p.Conforms M (bindPost M Q f) m) :
    (p >>= f).Conforms M Q m :=
  conforms_bind.2 h

/-- The condition that a guarded body has to establish. -/
def catchPost (M : Monitor Res σ) (Q : Except ε α → σ → Prop) (h : ε → Prog Res ε α) :
    Except ε α → σ → Prop
  | .ok a, m => Q (.ok a) m
  | .error e, m => (h e).Conforms M Q m

@[simp] theorem conforms_tryCatch {h : ε → Prog Res ε α} :
    (p.tryCatch h).Conforms M Q m ↔ p.Conforms M (catchPost M Q h) m := by
  induction p generalizing m with
  | ret => rfl
  | raise => rfl
  | call o k ih => exact and_congr_right fun _ ↦ forall_congr' fun r ↦ imp_congr_right fun _ ↦ ih r

theorem Conforms.ret (h : Q (.ok a) m) : (ret a : Prog Res ε α).Conforms M Q m := h

theorem Conforms.raise {e : ε} (h : Q (.error e) m) : (raise e : Prog Res ε α).Conforms M Q m := h

theorem Conforms.issue {o : Op} {Q : Except ε (Res o) → σ → Prop} (hmay : M.may m o)
    (h : ∀ r, M.ok m o r → Q (.ok r) (M.next m o r)) :
    (issue o : Prog Res ε (Res o)).Conforms M Q m := ⟨hmay, h⟩

/-- **The rule for loops.** A body that takes `I` to `I` on every element, and only fails into
`Q`, does so over the whole list. -/
theorem conforms_forEach {xs : List β} {f : β → Prog Res ε Unit} {I : σ → Prop}
    {Q : Except ε Unit → σ → Prop} {m : σ} (hm : I m)
    (hf : ∀ x ∈ xs, ∀ m', I m' → (f x).Conforms M (fun r m'' ↦ match r with
      | .ok _ => I m''
      | .error e => Q (.error e) m'') m')
    (hQ : ∀ m', I m' → Q (.ok ()) m') : (forEach xs f).Conforms M Q m := by
  induction xs generalizing m with
  | nil => exact hQ m hm
  | cons x _ ih =>
    refine conforms_bind.2 ((hf x List.mem_cons_self m hm).mono ?_)
    rintro (e | ⟨⟩) m' h
    · exact h
    · exact ih h fun y hy ↦ hf y (List.mem_cons_of_mem x hy)

theorem conforms_collect {xs : List β} {f : β → Prog Res ε α} {I : σ → Prop}
    {Q : Except ε (List α) → σ → Prop} {m : σ} (hm : I m)
    (hf : ∀ x ∈ xs, ∀ m', I m' → (f x).Conforms M (fun r m'' ↦ match r with
      | .ok _ => I m''
      | .error e => Q (.error e) m'') m')
    (hQ : ∀ as m', I m' → Q (.ok as) m') : (collect xs f).Conforms M Q m := by
  induction xs generalizing m Q with
  | nil => exact hQ [] m hm
  | cons x _ ih =>
    refine conforms_bind.2 ((hf x List.mem_cons_self m hm).mono ?_)
    rintro (e | a) m' h
    · exact h
    · refine conforms_bind.2 (ih h (fun y hy m'' hm'' ↦ ?_) fun as m'' hm'' ↦ hQ (a :: as) m'' hm'')
      refine (hf y (List.mem_cons_of_mem x hy) m'' hm'').mono ?_
      rintro (e | a') m₃ h₃
      · exact h₃
      · exact h₃

-- The rules above are complete, and unfolding would run the program.
attribute [irreducible] Conforms

end Prog

end Transaction
