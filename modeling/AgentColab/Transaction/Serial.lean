import AgentColab.Transaction.Database

/-!
# Transactions one after the other

A body that runs alone is a function of the store: no statement waits and none sees the work of
another transaction. The environment's input may differ from statement to statement, so it is a
sequence, indexed by the number that the statement uses as its nonce.
-/

namespace Transaction

namespace Database

variable {Op : Type} {Res : Op → Type} {ε α β : Type} (D : Database Res)

/-- Run a body alone: its outcome, the store it leaves and the next unused number. -/
def serial (inp : ℕ → D.Input) (n : ℕ) (s : D.Store) : Prog Res ε α → Except ε α × D.Store × ℕ
  | .ret a => (.ok a, s, n)
  | .raise e => (.error e, s, n)
  | .call o k =>
    let eff := D.exec (inp n) n (fun _ ↦ false) s o
    serial inp (n + 1) (D.view s eff.writes) (k eff.result)

/-- The transaction of a body run alone: committed if it returns, rolled back if it raises. -/
def transact (inp : ℕ → D.Input) (n : ℕ) (s : D.Store) (p : Prog Res ε α) : D.Store × ℕ :=
  match D.serial inp n s p with
  | (.ok _, s', n') => (s', n')
  | (.error _, _, n') => (s, n')

theorem serial_of_isOk {D : Database Res} {inp : ℕ → D.Input} {n : ℕ} {s : D.Store}
    {p : Prog Res ε Unit} (h : (D.serial inp n s p).1.isOk = true) :
    D.serial inp n s p = (.ok (), (D.transact inp n s p).1, (D.transact inp n s p).2) := by
  rw [transact]
  generalize D.serial inp n s p = x at h
  obtain ⟨e | ⟨⟩, s', n'⟩ := x
  · cases h
  · rfl

variable {p : Prog Res ε α} {n' n₀ : ℕ} {f : α → Prog Res ε β} {a : α} {e : ε} {o : Op}
    {Q Q' : α → D.Store → ℕ → Prop} {s' s₀ : D.Store} {xs : List β} {I : D.Store → ℕ → Prop}
    {Entry : Type} {body : Entry → Prog Res ε α} {C : D.Store → ℕ → Entry → (ℕ → D.Input) → Prop}

theorem serial_do {D : Database Res} {inp : ℕ → D.Input} {n : ℕ} {s s' : D.Store}
    (h : D.serial inp n s p = (.ok a, s', n')) :
    D.serial inp n s (p >>= f) = D.serial inp n' s' (f a) := by
  induction p generalizing s n with
  | ret =>
    cases h
    rfl
  | raise => cases h
  | call o k ih => exact ih _ h

theorem serial_do_error {D : Database Res} {inp : ℕ → D.Input} {n : ℕ} {s s' : D.Store}
    (h : D.serial inp n s p = (.error e, s', n')) :
    D.serial inp n s (p >>= f) = (.error e, s', n') := by
  induction p generalizing s n with
  | ret => cases h
  | raise =>
    cases h
    rfl
  | call o k ih => exact ih _ h

/-! ## Weakest preconditions -/

/-- Run alone from this store, the body ends with an outcome and a store that satisfy `Q`. -/
def wp (inp : ℕ → D.Input) (p : Prog Res ε α) (Q : Except ε α → D.Store → ℕ → Prop) (s : D.Store)
    (n : ℕ) : Prop :=
  Q (D.serial inp n s p).1 (D.serial inp n s p).2.1 (D.serial inp n s p).2.2

variable {D} {inp : ℕ → D.Input} {s : D.Store} {n : ℕ}

@[simp] theorem wp_ret {Q : Except ε α → D.Store → ℕ → Prop} :
    D.wp inp (.ret a : Prog Res ε α) Q s n ↔ Q (.ok a) s n := Iff.rfl

@[simp] theorem wp_raise {Q : Except ε α → D.Store → ℕ → Prop} :
    D.wp inp (.raise e : Prog Res ε α) Q s n ↔ Q (.error e) s n := Iff.rfl

theorem wp_call {k : Res o → Prog Res ε α} {Q : Except ε α → D.Store → ℕ → Prop} :
    D.wp inp (.call o k) Q s n ↔ D.wp inp (k (D.exec (inp n) n (fun _ ↦ false) s o).result) Q
        (D.view s (D.exec (inp n) n (fun _ ↦ false) s o).writes) (n + 1) := Iff.rfl

theorem wp_issue {Q : Except ε (Res o) → D.Store → ℕ → Prop} :
    D.wp inp (Prog.issue o) Q s n ↔ Q (.ok (D.exec (inp n) n (fun _ ↦ false) s o).result)
        (D.view s (D.exec (inp n) n (fun _ ↦ false) s o).writes) (n + 1) := Iff.rfl

theorem wp_bind {Q : Except ε β → D.Store → ℕ → Prop} :
    D.wp inp (p.bind f) Q s n ↔ D.wp inp p (fun x s' n' ↦ match x with
      | .ok a => D.wp inp (f a) Q s' n'
      | .error e => Q (.error e) s' n') s n := by
  induction p generalizing s n with
  | ret => rfl
  | raise => rfl
  | call o k ih => exact ih _

theorem wp_do {p : Prog Res ε α} {f : α → Prog Res ε β}
    {Q : Except ε β → D.Store → ℕ → Prop} (h : D.wp inp p (fun x s' n' ↦ match x with
      | .ok a => D.wp inp (f a) Q s' n'
      | .error e => Q (.error e) s' n') s n) : D.wp inp (p >>= f) Q s n := wp_bind.2 h

theorem wp_tryCatch {h : ε → Prog Res ε α} {Q : Except ε α → D.Store → ℕ → Prop} :
    D.wp inp (p.tryCatch h) Q s n ↔ D.wp inp p (fun x s' n' ↦ match x with
      | .ok a => Q (.ok a) s' n'
      | .error e => D.wp inp (h e) Q s' n') s n := by
  induction p generalizing s n with
  | ret => rfl
  | raise => rfl
  | call o k ih => exact ih _

theorem wp.mono {Q Q' : Except ε α → D.Store → ℕ → Prop} (hp : D.wp inp p Q s n)
    (hQ : ∀ x s' n', Q x s' n' → Q' x s' n') : D.wp inp p Q' s n :=
  hQ _ _ _ hp

/-- The same when only a return matters: a body that raises is going to be rolled back. -/
def Returns (D : Database Res) (inp : ℕ → D.Input) (p : Prog Res ε α)
    (Q : α → D.Store → ℕ → Prop) (s : D.Store) (n : ℕ) : Prop :=
  D.wp inp p (fun x s' n' ↦ match x with
    | .ok a => Q a s' n'
    | .error _ => True) s n

@[simp] theorem returns_ret : D.Returns inp (.ret a : Prog Res ε α) Q s n ↔ Q a s n := Iff.rfl

@[simp] theorem returns_raise : D.Returns inp (.raise e : Prog Res ε α) Q s n := trivial

theorem returns_issue {Q : Res o → D.Store → ℕ → Prop} :
    D.Returns inp (Prog.issue o : Prog Res ε (Res o)) Q s n ↔
      Q (D.exec (inp n) n (fun _ ↦ false) s o).result
        (D.view s (D.exec (inp n) n (fun _ ↦ false) s o).writes) (n + 1) := Iff.rfl

theorem returns_bind {Q : β → D.Store → ℕ → Prop} : D.Returns inp (p.bind f) Q s n ↔
      D.Returns inp p (fun a s' n' ↦ D.Returns inp (f a) Q s' n') s n := by
  induction p generalizing s n with
  | ret => rfl
  | raise => rfl
  | call o k ih => exact ih _

theorem returns_do {Q : β → D.Store → ℕ → Prop}
    (h : D.Returns inp p (fun a s' n' ↦ D.Returns inp (f a) Q s' n') s n) :
    D.Returns inp (p >>= f) Q s n := returns_bind.2 h

theorem Returns.mono (hp : D.Returns inp p Q s n) (hQ : ∀ a s' n', Q a s' n' → Q' a s' n') :
    D.Returns inp p Q' s n := by
  refine wp.mono hp ?_
  rintro (e | a) s' n' h
  · trivial
  · exact hQ a s' n' h

theorem Returns.of_serial (hp : D.Returns inp p Q s n) (h : D.serial inp n s p = (.ok a, s', n')) :
    Q a s' n' := by
  rw [Returns, wp, h] at hp
  exact hp

theorem le_serial (p : Prog Res ε α) : n ≤ (D.serial inp n s p).2.2 := by
  induction p generalizing s n with
  | ret => exact Nat.le_refl n
  | raise => exact Nat.le_refl n
  | call o k ih => exact Nat.le_trans (Nat.le_succ n) (ih _)

theorem le_of_serial {x : Except ε α} (h : D.serial inp n s p = (x, s', n')) : n ≤ n' := by
  have hle : n ≤ (D.serial inp n s p).2.2 := le_serial p
  rwa [h] at hle

theorem Returns.le (hp : D.Returns inp p Q s n) :
    D.Returns inp p (fun a s' n' ↦ Q a s' n' ∧ n ≤ n') s n := by
  have hle : n ≤ (D.serial inp n s p).2.2 := le_serial p
  rw [Returns, wp] at hp ⊢
  split at hp
  · exact ⟨hp, hle⟩
  · trivial

/-- **The rule for loops.** The invariant `I` may speak about the elements that are still to
come. -/
theorem returns_forEach {f : β → Prog Res ε Unit} {I : List β → D.Store → ℕ → Prop} (h₀ : I xs s n)
    (hf : ∀ x rest s n, I (x :: rest) s n → D.Returns inp (f x) (fun _ s' n' ↦ I rest s' n') s n) :
    D.Returns inp (Prog.forEach xs f) (fun _ s' n' ↦ I [] s' n') s n := by
  induction xs generalizing s n with
  | nil => exact h₀
  | cons x xs ih => exact returns_bind.2 ((hf x xs s n h₀).mono fun _ _ _ h ↦ ih h)

/-- The rule for loops with results. What is said of an element and its result has to survive the
rest of the loop. -/
theorem returns_collect {f : β → Prog Res ε α} {P : β → α → D.Store → Prop} (h₀ : I s n) (hf : ∀ x
    ∈ xs, ∀ s n, I s n → D.Returns inp (f x) (fun a s' n' ↦ I s' n' ∧ P x a s' ∧ ∀ y b, P y b s →
    P y b s') s n) : D.Returns inp (Prog.collect xs f) (fun as s' n' ↦
      I s' n' ∧ (∀ x ∈ xs, ∃ a ∈ as, P x a s') ∧ ∀ y b, P y b s → P y b s') s n := by
  induction xs generalizing s n with
  | nil => exact ⟨h₀, fun x hx ↦ absurd hx List.not_mem_nil, fun _ _ h ↦ h⟩
  | cons x _ ih =>
    refine returns_bind.2 ((hf x List.mem_cons_self s n h₀).mono ?_)
    rintro a s₁ n₁ ⟨hI, hx, hkeep⟩
    refine returns_bind.2 ((ih hI fun y hy ↦ hf y (List.mem_cons_of_mem x hy)).mono ?_)
    rintro as s₂ n₂ ⟨hI', hxs, hkeep'⟩
    refine ⟨hI', ?_, fun y b h ↦ hkeep' y b (hkeep y b h)⟩
    intro y hy
    rcases List.mem_cons.1 hy with rfl | hy
    · exact ⟨a, List.mem_cons_self, hkeep' _ _ hx⟩
    · obtain ⟨b, hb, hP⟩ := hxs y hy
      exact ⟨b, List.mem_cons_of_mem a hb, hP⟩

theorem le_transact (p : Prog Res ε α) : n ≤ (D.transact inp n s p).2 := by
  have hle : n ≤ (D.serial inp n s p).2.2 := le_serial p
  rw [Database.transact]
  split
  · next heq => simpa [heq] using hle
  · next heq => simpa [heq] using hle

/-- What every return establishes, and holds of the store at the start, holds after the
transaction. -/
theorem Returns.transact (hp : D.Returns inp p (fun _ s' n' ↦ I s' n') s n)
    (h₀ : ∀ n', n ≤ n' → I s n') : I (D.transact inp n s p).1 (D.transact inp n s p).2 := by
  have hle : n ≤ (D.serial inp n s p).2.2 := le_serial p
  rw [Returns, wp] at hp
  rw [Database.transact]
  split
  · next heq => simpa [heq] using hp
  · next heq =>
    rw [heq] at hle
    exact h₀ _ hle

/-- Total correctness: run alone from this store, the body returns, with a result and a store that
satisfy `Q`. -/
def Succeeds (D : Database Res) (inp : ℕ → D.Input) (p : Prog Res ε α)
    (Q : α → D.Store → ℕ → Prop) (s : D.Store) (n : ℕ) : Prop :=
  D.wp inp p (fun x s' n' ↦ match x with
    | .ok a => Q a s' n'
    | .error _ => False) s n

theorem succeeds_ret : D.Succeeds inp (.ret a : Prog Res ε α) Q s n ↔ Q a s n := Iff.rfl

theorem succeeds_issue {Q : Res o → D.Store → ℕ → Prop} :
    D.Succeeds inp (Prog.issue o : Prog Res ε (Res o)) Q s n ↔
      Q (D.exec (inp n) n (fun _ ↦ false) s o).result
        (D.view s (D.exec (inp n) n (fun _ ↦ false) s o).writes) (n + 1) := Iff.rfl

theorem succeeds_bind {Q : β → D.Store → ℕ → Prop} : D.Succeeds inp (p.bind f) Q s n ↔
      D.Succeeds inp p (fun a s' n' ↦ D.Succeeds inp (f a) Q s' n') s n := by
  induction p generalizing s n with
  | ret => rfl
  | raise => rfl
  | call o k ih => exact ih _

theorem succeeds_do {Q : β → D.Store → ℕ → Prop}
    (h : D.Succeeds inp p (fun a s' n' ↦ D.Succeeds inp (f a) Q s' n') s n) :
    D.Succeeds inp (p >>= f) Q s n := succeeds_bind.2 h

theorem Succeeds.mono (hp : D.Succeeds inp p Q s n) (hQ : ∀ a s' n', Q a s' n' → Q' a s' n') :
    D.Succeeds inp p Q' s n := by
  refine wp.mono hp ?_
  rintro (e | a) s' n' h
  · exact h.elim
  · exact hQ a s' n' h

theorem Succeeds.transact (hp : D.Succeeds inp p Q s n) :
    ∃ a, Q a (D.transact inp n s p).1 (D.transact inp n s p).2 := by
  rw [Succeeds, wp] at hp
  rw [Database.transact]
  split
  · next a s' n' heq => exact ⟨a, by simpa [heq] using hp⟩
  · next e s' n' heq => simp [heq] at hp

/-! ## Histories -/

/-- A sequence of transactions run one after the other, each of which meets `C` at its start. -/
inductive History {Entry : Type} (body : Entry → Prog Res ε α)
    (C : D.Store → ℕ → Entry → (ℕ → D.Input) → Prop) (s₀ : D.Store) (n₀ : ℕ) :
    D.Store → ℕ → Prop where
  | refl : History body C s₀ n₀ s₀ n₀
  | step {s : D.Store} {n : ℕ} (e : Entry) (inp : ℕ → D.Input) : History body C s₀ n₀ s n →
    C s n e inp → History body C s₀ n₀ (D.transact inp n s (body e)).1
      (D.transact inp n s (body e)).2

/-- **Induction over a history.** What holds at the start, survives a rollback and is preserved by
every body that returns, holds at the end. -/
theorem History.invariant (h₀ : I s₀ n₀) (hmono : ∀ s n n', n ≤ n' → I s n → I s n')
    (hstep : ∀ s n e inp, I s n → C s n e inp → D.Returns inp (body e) (fun _ s' n' ↦ I s' n') s n)
    (h : History body C s₀ n₀ s n) : I s n := by
  induction h with
  | refl => exact h₀
  | @step s n e inp _ hC ih =>
    exact (hstep s n e inp ih hC).transact fun n' hle ↦ hmono s n n' hle ih

theorem History.induct {P : D.Store → ℕ → Prop} (h₀ : P s₀ n₀) (hstep : ∀ s n e inp, History body C
    s₀ n₀ s n → C s n e inp → P s n → P (D.transact inp n s (body e)).1 (D.transact inp n s (body
    e)).2) (h : History body C s₀ n₀ s n) : P s n := by
  induction h with
  | refl => exact h₀
  | step e inp hs he ih => exact hstep _ _ e inp hs he ih

theorem History.mono {C' : D.Store → ℕ → Entry → (ℕ → D.Input) → Prop}
    (hC : ∀ s n e inp, C s n e inp → C' s n e inp) (h : History body C s₀ n₀ s n) :
    History body C' s₀ n₀ s n := by
  induction h with
  | refl => exact .refl
  | step e inp _ he ih => exact .step e inp ih (hC _ _ _ _ he)

theorem History.trans {s₁ : D.Store} {n₁ : ℕ} (h : History body C s₀ n₀ s₁ n₁)
    (h' : History body C s₁ n₁ s n) : History body C s₀ n₀ s n := by
  induction h' with
  | refl => exact h
  | step e inp _ he ih => exact .step e inp ih he

-- The rules above are complete, and unfolding would run the program.
attribute [irreducible] wp Returns Succeeds

end Database

end Transaction
