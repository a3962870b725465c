import AgentColab.Transaction.Serial

/-!
# Monitors of transactions that run alone

Here the store is the one of a body run alone. If each statement that may be issued keeps the
knowledge of a monitor true, then a conforming body ends with knowledge that is true of the store it
leaves, whether it returns or raises.
-/

namespace Transaction

variable {Op : Type} {Res : Op → Type} {ε α σ : Type}

/-- **Knowledge that is kept.** `I` ties the knowledge to the store: a statement that may be issued
is answered as the monitor says, and what is known afterwards is true of the store afterwards. -/
structure Database.Tracks (D : Database Res) (M : Monitor Res σ) (inp : ℕ → D.Input)
    (I : σ → D.Store → Prop) : Prop where
  ok : ∀ m s n o, I m s → M.may m o → M.ok m o (D.exec (inp n) n (fun _ ↦ false) s o).result
  next : ∀ m s n o, I m s → M.may m o → I (M.next m o (D.exec (inp n) n (fun _ ↦ false) s o).result)
      (D.view s (D.exec (inp n) n (fun _ ↦ false) s o).writes)

variable {D : Database Res} {M : Monitor Res σ} {inp : ℕ → D.Input} {I : σ → D.Store → Prop}

/-- **A conforming body ends with what it knows.** -/
theorem Database.Tracks.wp {p : Prog Res ε α} {Q : Except ε α → σ → Prop} {m : σ} {s : D.Store}
    {n : ℕ} (h : D.Tracks M inp I) (hI : I m s) (hp : p.Conforms M Q m) :
    D.wp inp p (fun x s' _ ↦ ∃ m', Q x m' ∧ I m' s') s n := by
  induction p generalizing m s n with
  | ret a => exact Database.wp_ret.2 ⟨m, (Prog.conforms_ret a m).1 hp, hI⟩
  | raise e => exact Database.wp_raise.2 ⟨m, (Prog.conforms_raise e m).1 hp, hI⟩
  | call o k ih =>
    obtain ⟨hmay, hk⟩ := (Prog.conforms_call o k m).1 hp
    exact Database.wp_call.2 (ih _ (h.next m s n o hI hmay) (hk _ (h.ok m s n o hI hmay)))

end Transaction

/-!
## Bodies that issue some statements only

Often all that matters of a body is which statements it can issue, whatever it is told. What every
such statement keeps true of the store is then kept by the body, however it ends, and by a history
of such bodies.
-/

namespace Transaction

variable {Op : Type} {Res : Op → Type} {ε α β : Type} {P P' : Op → Prop}

def Monitor.only (P : Op → Prop) : Monitor Res Unit where
  may _ := P
  ok _ _ _ := True
  next _ _ _ := ()

namespace Prog

/-- Every statement that the body can issue satisfies `P`. -/
def Only (P : Op → Prop) (p : Prog Res ε α) : Prop :=
  p.Conforms (Monitor.only P) (fun _ _ ↦ True) ()

theorem Only.ret {a : α} : (ret a : Prog Res ε α).Only P := Conforms.ret trivial

theorem Only.raise {e : ε} : (raise e : Prog Res ε α).Only P := Conforms.raise trivial

theorem Only.issue {o : Op} (ho : P o) : (issue o : Prog Res ε (Res o)).Only P :=
  Conforms.issue ho fun _ _ ↦ trivial

variable {p : Prog Res ε α} {xs : List β}

theorem Only.bind {f : α → Prog Res ε β} (hp : p.Only P) (hf : ∀ a, (f a).Only P) :
    (p >>= f).Only P := by
  refine conforms_do (hp.mono ?_)
  rintro (e | a) ⟨⟩ -
  · trivial
  · exact hf a

theorem Only.mono (hp : p.Only P) (h : ∀ o, P o → P' o) : p.Only P' := by
  induction p with
  | ret => exact .ret
  | raise => exact .raise
  | call o k ih =>
    obtain ⟨ho, hk⟩ := (conforms_call o k ()).1 hp
    exact (conforms_call o k ()).2 ⟨h o ho, fun r _ ↦ ih r (hk r trivial)⟩

theorem Only.all : p.Only fun _ ↦ True := by
  induction p with
  | ret => exact .ret
  | raise => exact .raise
  | call o k ih => exact (conforms_call o k ()).2 ⟨trivial, fun r _ ↦ ih r⟩

theorem Only.ite {c : Prop} [Decidable c] {q : Prog Res ε α} (hp : p.Only P) (hq : q.Only P) :
    (if c then p else q).Only P := by
  split
  · exact hp
  · exact hq

theorem Only.forEach {f : β → Prog Res ε Unit} (hf : ∀ x, (f x).Only P) :
    (forEach xs f).Only P := by
  induction xs with
  | nil => exact .ret
  | cons x _ ih => exact (hf x).bind fun _ ↦ ih

theorem Only.collect {f : β → Prog Res ε α} (hf : ∀ x, (f x).Only P) : (collect xs f).Only P := by
  induction xs with
  | nil => exact .ret
  | cons x _ ih => exact (hf x).bind fun _ ↦ ih.bind fun _ ↦ .ret

end Prog

namespace Database

variable {D : Database Res} {inp : ℕ → D.Input} {I : D.Store → Prop} {p : Prog Res ε α}
  {s : D.Store} {n : ℕ}

/-- Every statement that satisfies `P` keeps `I`. -/
def Keeps (D : Database Res) (P : Op → Prop) (I : D.Store → Prop) : Prop :=
  ∀ inp n s o, P o → I s → I (D.view s (D.exec inp n (fun _ ↦ false) s o).writes)

theorem Keeps.tracks (h : D.Keeps P I) : D.Tracks (Monitor.only P) inp fun _ s ↦ I s where
  ok _ _ _ _ _ _ := trivial
  next _ s n o hs ho := h (inp n) n s o ho hs

theorem Keeps.wp (h : D.Keeps P I) (hp : p.Only P) (hs : I s) :
    D.wp inp p (fun _ s' _ ↦ I s') s n := by
  have htracks : D.Tracks (Monitor.only P) inp fun _ s ↦ I s := h.tracks
  exact (htracks.wp hs hp).mono fun _ _ _ ⟨_, _, hI⟩ ↦ hI

theorem Keeps.returns (h : D.Keeps P I) (hp : p.Only P) (hs : I s) :
    D.Returns inp p (fun _ s' _ ↦ I s') s n := by
  have hwp : D.wp inp p (fun _ s' _ ↦ I s') s n := Keeps.wp h hp hs
  rw [Returns]
  refine hwp.mono ?_
  rintro (e | a) s' n' hI
  · trivial
  · exact hI

/-- **What the statements keep, a history of bodies keeps.** -/
theorem Keeps.history (h : D.Keeps P I) {Entry : Type} {body : Entry → Prog Res ε α}
    {C : D.Store → ℕ → Entry → (ℕ → D.Input) → Prop} {s₀ : D.Store} {n₀ : ℕ}
    (hbody : ∀ s n e inp, C s n e inp → (body e).Only P) (h₀ : I s₀)
    (hhistory : D.History body C s₀ n₀ s n) : I s :=
  hhistory.invariant (I := fun s _ ↦ I s) h₀ (fun _ _ _ _ hs ↦ hs)
    fun s n e inp hs hC ↦ h.returns (hbody s n e inp hC) hs

end Database

end Transaction
