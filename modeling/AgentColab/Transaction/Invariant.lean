import AgentColab.Transaction.System

/-!
# Invariants of interleaved transactions

In every run of every system whoever has written a key holds its lock, and a body that conformed to
a monitor at its start still conforms to it. An invariant of a particular system is added to these,
and has to be kept by each of the five kinds of step; when a statement is executed the invariant
owes the body that the result is possible, and the body owes that the statement may be issued.
-/

namespace Transaction

open Option

namespace System

variable {Y : System}

/-! ## The lock discipline -/

/-- The keys that session `i` holds. -/
def World.Held (w : Y.World) (i : ℕ) (k : Y.db.Key) : Prop := w.locks k = some i

/-- Every key a session has written is held by it, and only open sessions hold keys. -/
structure World.Disciplined (w : Y.World) : Prop where
  written : ∀ i s, w.sessions i = some s → ∀ x ∈ s.log, ∀ k ∈ Y.db.keys x, w.Held i k
  opened : ∀ i k, w.Held i k → w.sessions i ≠ none

variable {w : Y.World} {i j : ℕ} {s : Y.Session} {c : Y.Call} {o : Y.Op}
    {eff : Effect Y.db.Write Y.db.Key (Y.Res o)} {k : Y.Res o → Prog Y.Res Y.Err Y.Ret}
    {key : Y.db.Key}

theorem World.held_afterExec :
    (w.afterExec i s c eff k).Held i key ↔ key ∈ eff.locks ∨ w.Held i key := by
  simp only [World.Held, World.afterExec]
  by_cases h : key ∈ eff.locks <;> simp [h]

theorem World.held_afterExec_of_ne (hij : j ≠ i)
    (hfree : ∀ x ∈ eff.locks, w.heldByOther i x = false) :
    (w.afterExec i s c eff k).Held j key ↔ w.Held j key := by
  simp only [World.Held, World.afterExec]
  by_cases h : key ∈ eff.locks
  · have hother : w.locks key ≠ some j := fun hj ↦
      hij (World.heldByOther_eq_false.1 (hfree key h) j hj)
    simp [h, hother, Ne.symm hij]
  · simp [h]

theorem World.held_close_of_ne (hij : j ≠ i) : (w.close i).Held j key ↔ w.Held j key := by
  simp only [World.Held, World.close]
  by_cases h : w.locks key = some i
  · simp [h, Ne.symm hij]
  · simp [h]

theorem World.not_held_close : ¬(w.close i).Held i key := by
  simp only [World.Held, World.close]
  by_cases h : w.locks key = some i <;> simp [h]

theorem World.Disciplined.close (hw : w.Disciplined) (i : ℕ) : (w.close i).Disciplined where
  written j s hs x hx k hk := by
    by_cases hij : j = i
    · simp [hij, World.close] at hs
    · rw [World.held_close_of_ne hij]
      exact hw.written j s (by rwa [World.close, World.setSession_of_ne _ hij] at hs) x hx k hk
  opened j k hk := by
    by_cases hij : j = i
    · exact absurd (hij ▸ hk) World.not_held_close
    · rw [World.close, World.setSession_of_ne _ hij]
      exact hw.opened j k ((World.held_close_of_ne hij).1 hk)

theorem World.Disciplined.not_held (hw : w.Disciplined) (hij : i ≠ j) {t : Y.Session}
    (ht : w.sessions j = some t) {x : Y.db.Write} (hx : x ∈ t.log) {k : Y.db.Key}
    (hk : k ∈ Y.db.keys x) : ¬w.Held i k := fun hi ↦
  hij (some.inj (hi.symm.trans (hw.written j t ht x hx k hk)))

theorem World.Disciplined.step {w' : Y.World} {l : Y.Label} (hw : w.Disciplined)
    (h : w.step l = some w') : w'.Disciplined := by
  obtain ⟨i, e, s, rfl, hs, -, -, rfl⟩ | ⟨i, inp, s, c, o, k, rfl, hs, -, -, hfree, rfl⟩ |
    ⟨i, s, c, x, rfl, hs, -, -, rfl⟩ | ⟨i, s, rfl, hs, -, -, rfl⟩ | ⟨i, rfl, rfl⟩ :=
    World.step_cases h
  · constructor
    · intro j t ht x hx k hk
      by_cases hij : j = i
      · subst hij
        obtain rfl : s.start e (w.view s) = t := by simpa [World.afterCall] using ht
        cases hj : w.sessions j with
        | none =>
          rw [hj, getD_none] at hs
          simp [← hs, Session.start] at hx
        | some s' =>
          rw [hj, getD_some] at hs
          exact hw.written j s' hj x (hs ▸ hx) k hk
      · exact hw.written j t (by rwa [World.afterCall, World.setSession_of_ne _ hij] at ht) x hx k hk
    · intro j k hk
      by_cases hij : j = i
      · simp [hij, World.afterCall]
      · rw [World.afterCall, World.setSession_of_ne _ hij]
        exact hw.opened j k hk
  · constructor
    · intro j t ht x hx key hkey
      by_cases hij : j = i
      · subst hij
        obtain rfl : s.advance c (w.effect j s inp o) k = t := by simpa [World.afterExec] using ht
        rw [World.held_afterExec]
        rcases List.mem_append.1 hx with hx | hx
        · exact .inr (hw.written j s hs x hx key hkey)
        · exact .inl (Y.db.locked _ _ _ _ _ x hx key hkey)
      · rw [World.held_afterExec_of_ne hij hfree]
        refine hw.written j t ?_ x hx key hkey
        rwa [World.afterExec, World.setSession_of_ne _ hij] at ht
    · intro j key hkey
      by_cases hij : j = i
      · simp [hij, World.afterExec]
      · rw [World.afterExec, World.setSession_of_ne _ hij]
        exact hw.opened j key ((World.held_afterExec_of_ne hij hfree).1 hkey)
  · constructor
    · intro j t ht y hy k hk
      by_cases hij : j = i
      · subst hij
        obtain rfl : s.finish c x = t := by simpa [World.afterFinish] using ht
        exact hw.written j s hs y hy k hk
      · exact hw.written j t (by rwa [World.afterFinish, World.setSession_of_ne _ hij] at ht)
          y hy k hk
    · intro j k hk
      by_cases hij : j = i
      · simp [hij, World.afterFinish]
      · rw [World.afterFinish, World.setSession_of_ne _ hij]
        exact hw.opened j k hk
  · exact ⟨(hw.close i).written, (hw.close i).opened⟩
  · exact hw.close i

/-! ## Protocols -/

/-- **A protocol**: a monitor, the knowledge a call starts with, the condition under which it may
end, and the proof that every body conforms. -/
structure Protocol (Y : System) (σ : Type) where
  monitor : Monitor Y.Res σ
  start : Y.Entry → σ
  finish : Y.Entry → Except Y.Err Y.Ret → σ → Prop
  conforms : ∀ e, (Y.body e).Conforms monitor (finish e) (start e)

namespace Protocol

variable {σ : Type} (P : Protocol Y σ)

/-- The knowledge that a trace leads to. -/
def after (m : σ) (trace : List Y.Stmt) : σ :=
  trace.foldl (fun m t ↦ P.monitor.next m t.op t.res) m

def known (c : Y.Call) : σ := P.after (P.start c.entry) c.trace

theorem known_advance (c : Y.Call) (o : Y.Op) (r : Y.Res o) (rest : Prog Y.Res Y.Err Y.Ret) :
    P.known { c with rest := rest, trace := c.trace ++ [⟨o, r⟩] } =
      P.monitor.next (P.known c) o r := by
  simp [known, after]

/-- Every call in progress still conforms, from what it knows. -/
def Conforming (w : Y.World) : Prop :=
  ∀ i s c, w.sessions i = some s → s.call = some c →
    c.rest.Conforms P.monitor (P.finish c.entry) (P.known c)

/-- What an invariant `I` has to satisfy to hold in every run that satisfies `C`. The fields `ok`
and `exec` are about the same step; the others are about the other kinds of step. -/
structure Keeps (C : Y.World → Y.Label → Prop) (I : Y.World → Prop) : Prop where
  ok : ∀ w i inp s c o k, w.Disciplined → I w → C w (.exec i inp) → w.sessions i = some s →
    s.call = some c → c.rest = .call o k → P.monitor.may (P.known c) o →
    (∀ key ∈ (w.effect i s inp o).locks, w.heldByOther i key = false) →
    P.monitor.ok (P.known c) o (w.effect i s inp o).result
  exec : ∀ w i inp s c o k, w.Disciplined → I w → C w (.exec i inp) → w.sessions i = some s →
    s.call = some c → c.rest = .call o k → P.monitor.may (P.known c) o →
    (∀ key ∈ (w.effect i s inp o).locks, w.heldByOther i key = false) →
    P.monitor.ok (P.known c) o (w.effect i s inp o).result →
    I (w.afterExec i s c (w.effect i s inp o) k)
  call : ∀ w i e s, w.Disciplined → I w → C w (.call i e) → (w.sessions i).getD {} = s →
    s.call = none → Y.mayCall w.aux s.done e = true → I (w.afterCall i s e)
  finish : ∀ w i s c x, w.Disciplined → I w → C w (.finish i) → w.sessions i = some s →
    s.call = some c → outcome? c.rest = some x → P.finish c.entry x (P.known c) →
    I (w.afterFinish i s c x)
  commit : ∀ w i s, w.Disciplined → I w → C w (.commit i) → w.sessions i = some s →
    s.call = none → Y.mayCommit s.done = true → I (w.afterCommit i s)
  rollback : ∀ w i, w.Disciplined → I w → C w (.rollback i) → I (w.close i)

variable {P}

theorem finish_of_outcome? {x : Except Y.Err Y.Ret} (hx : outcome? c.rest = some x)
    (hc : c.rest.Conforms P.monitor (P.finish c.entry) (P.known c)) :
    P.finish c.entry x (P.known c) := by
  cases hr : c.rest with
  | ret a =>
    rw [hr] at hx hc
    cases hx
    exact (Prog.conforms_ret a _).1 hc
  | raise e =>
    rw [hr] at hx hc
    cases hx
    exact (Prog.conforms_raise e _).1 hc
  | call => simp [hr, outcome?] at hx

variable {w : Y.World} {C : Y.World → Y.Label → Prop} {I : Y.World → Prop}

theorem Conforming.setSession (hw : P.Conforming w) {t : Option Y.Session} (ht : ∀ s c, t = some s
    → s.call = some c → c.rest.Conforms P.monitor (P.finish c.entry) (P.known c)) :
    P.Conforming (w.setSession i t) := by
  intro j s c hs hc
  by_cases hij : j = i
  · subst hij
    rw [World.setSession_same] at hs
    exact ht s c hs hc
  · rw [World.setSession_of_ne _ hij] at hs
    exact hw j s c hs hc

theorem Keeps.step (H : P.Keeps C I) {w' : Y.World} {l : Y.Label} (hl : C w l)
    (h : w.step l = some w') (hd : w.Disciplined) (hc : P.Conforming w) (hI : I w) :
    P.Conforming w' ∧ I w' := by
  obtain ⟨i, e, s, rfl, hs, hcall, hmay, rfl⟩ |
    ⟨i, inp, s, c, o, k, rfl, hs, hcall, hrest, hfree, rfl⟩ |
    ⟨i, s, c, x, rfl, hs, hcall, hx, rfl⟩ | ⟨i, s, rfl, hs, hcall, hmay, rfl⟩ | ⟨i, rfl, rfl⟩ :=
    World.step_cases h
  · refine ⟨hc.setSession ?_, H.call w i e s hd hI hl hs hcall hmay⟩
    rintro t c ht hc'
    obtain rfl : s.start e (w.view s) = t := by simpa using ht
    obtain rfl : _ = c := some.inj hc'
    exact P.conforms e
  · have hconf := hc i s c hs hcall
    rw [hrest, Prog.conforms_call] at hconf
    have hok := H.ok w i inp s c o k hd hI hl hs hcall hrest hconf.1 hfree
    refine ⟨hc.setSession ?_, H.exec w i inp s c o k hd hI hl hs hcall hrest hconf.1 hfree hok⟩
    rintro t c' ht hc'
    obtain rfl : s.advance c (w.effect i s inp o) k = t := by simpa using ht
    obtain rfl : _ = c' := some.inj hc'
    rw [P.known_advance]
    exact hconf.2 _ hok
  · refine ⟨hc.setSession ?_, H.finish w i s c x hd hI hl hs hcall hx
      (finish_of_outcome? hx (hc i s c hs hcall))⟩
    rintro t c' ht hc'
    obtain rfl : s.finish c x = t := by simpa using ht
    cases hc'
  · exact ⟨hc.setSession fun t c ht _ ↦ (nomatch ht), H.commit w i s hd hI hl hs hcall hmay⟩
  · exact ⟨hc.setSession fun t c ht _ ↦ (nomatch ht), H.rollback w i hd hI hl⟩

/-- **The run lemma.** An invariant that is kept holds at the end of every run from a world in
which no session is open. -/
theorem Keeps.run (H : P.Keeps C I) {w₀ : Y.World} (hopen : ∀ i, w₀.sessions i = none)
    (hlocks : ∀ k, w₀.locks k = none) (hI : I w₀) (hw : Run C w₀ w) :
    w.Disciplined ∧ P.Conforming w ∧ I w := by
  induction hw with
  | refl =>
    refine ⟨⟨?_, ?_⟩, ?_, hI⟩
    · intro i s hs
      simp [hopen i] at hs
    · intro i k hk
      simp [World.Held, hlocks k] at hk
    · intro i s c hs
      simp [hopen i] at hs
  | step l _ hl hs ih =>
    obtain ⟨hd, hc, hI⟩ := ih
    exact ⟨hd.step hs, H.step hl hs hd hc hI⟩

end Protocol

/-! ## Local invariants -/

/-- A property `G` of the committed store, a property `L` of each open session with the keys it
holds, and a property `R` of each finished call. -/
structure Shape (Y : System) where
  G : Y.db.Store → Prop
  L : Y.db.Store → (Y.db.Key → Prop) → Y.Session → Prop
  R : Y.Finished → Prop

structure Shape.Holds (S : Shape Y) (w : Y.World) : Prop where
  store : S.G w.store
  session : ∀ i s, w.sessions i = some s → S.L w.store (w.Held i) s
  finished : ∀ f ∈ w.calls, S.R f

/-- What a local invariant has to satisfy. `C` may still speak about the whole world; only the
fields `ok` and `exec` see it. -/
structure Protocol.Local {σ : Type} (P : Protocol Y σ) (C : Y.World → Y.Label → Prop) (S : Shape Y) :
    Prop where
  ok : ∀ w i inp s c o k, S.Holds w → C w (.exec i inp) → w.sessions i = some s →
    s.call = some c → c.rest = .call o k → P.monitor.may (P.known c) o →
    (∀ key ∈ (w.effect i s inp o).locks, w.heldByOther i key = false) →
    P.monitor.ok (P.known c) o (w.effect i s inp o).result
  exec : ∀ w i inp s c o k, S.Holds w → C w (.exec i inp) → w.sessions i = some s →
    s.call = some c → c.rest = .call o k → P.monitor.may (P.known c) o →
    (∀ key ∈ (w.effect i s inp o).locks, w.heldByOther i key = false) →
    P.monitor.ok (P.known c) o (w.effect i s inp o).result →
    S.L w.store (fun key ↦ key ∈ (w.effect i s inp o).locks ∨ w.Held i key)
      (s.advance c (w.effect i s inp o) k)
  opened : ∀ st, S.G st → S.L st (fun _ ↦ False) {}
  call : ∀ w i e s, C w (.call i e) → S.G w.store → s.call = none → S.L w.store (w.Held i) s →
    Y.mayCall w.aux s.done e = true → S.L w.store (w.Held i) (s.start e (w.view s))
  finish : ∀ w i s c x, S.Holds w → w.sessions i = some s → s.call = some c →
    P.finish c.entry x (P.known c) → S.L w.store (w.Held i) (s.finish c x) ∧
      S.R ⟨i, c.entry, x, c.trace, c.log₀, c.view₀, s.log, w.view s⟩
  commit : ∀ st held s, S.G st → S.L st held s → s.call = none → Y.mayCommit s.done = true →
    S.G (Y.db.view st s.log)
  others : ∀ st held held' s t, S.G st → S.L st held s → S.L st held' t → t.call = none →
    (∀ x ∈ s.log, ∀ k ∈ Y.db.keys x, held k) →
    (∀ x ∈ t.log, ∀ k ∈ Y.db.keys x, ¬held k) → S.L (Y.db.view st t.log) held s

variable {S : Shape Y}

theorem Shape.Holds.getD (hw : S.Holds w) (hd : w.Disciplined)
    (hopened : S.L w.store (fun _ ↦ False) {}) (hs : (w.sessions i).getD {} = s) :
    S.L w.store (w.Held i) s := by
  cases hi : w.sessions i with
  | none =>
    obtain rfl : {} = s := by simpa [hi] using hs
    have hnone : w.Held i = fun _ ↦ False :=
      funext fun k ↦ eq_false fun hk ↦ hd.opened i k hk hi
    rwa [hnone]
  | some t =>
    obtain rfl : t = s := by simpa [hi] using hs
    exact hw.session i t hi

theorem Protocol.Local.keeps {σ : Type} {P : Protocol Y σ} {C : Y.World → Y.Label → Prop}
    (H : P.Local C S) : P.Keeps C S.Holds where
  ok w i inp s c o k _ hI := H.ok w i inp s c o k hI
  exec w i inp s c o k _ hI hC hs hc hr hmay hfree hok := by
    refine ⟨hI.store, ?_, hI.finished⟩
    intro j t ht
    by_cases hij : j = i
    · subst hij
      obtain rfl : s.advance c (w.effect j s inp o) k = t := by simpa [World.afterExec] using ht
      have hheld : (w.afterExec j s c (w.effect j s inp o) k).Held j =
          fun key ↦ key ∈ (w.effect j s inp o).locks ∨ w.Held j key :=
        funext fun key ↦ propext World.held_afterExec
      rw [hheld]
      exact H.exec w j inp s c o k hI hC hs hc hr hmay hfree hok
    · have hheld : (w.afterExec i s c (w.effect i s inp o) k).Held j = w.Held j :=
        funext fun key ↦ propext (World.held_afterExec_of_ne hij hfree)
      rw [hheld]
      exact hI.session j t (by rwa [World.afterExec, World.setSession_of_ne _ hij] at ht)
  call w i e s hd hI hC hs hc hmay := by
    refine ⟨hI.store, ?_, hI.finished⟩
    intro j t ht
    by_cases hij : j = i
    · subst hij
      obtain rfl : s.start e (w.view s) = t := by simpa [World.afterCall] using ht
      exact H.call w j e s hC hI.store hc (hI.getD hd (H.opened _ hI.store) hs) hmay
    · exact hI.session j t (by rwa [World.afterCall, World.setSession_of_ne _ hij] at ht)
  finish w i s c x _ hI _ hs hc _ hfin := by
    obtain ⟨hL, hR⟩ := H.finish w i s c x hI hs hc hfin
    refine ⟨hI.store, ?_, ?_⟩
    · intro j t ht
      by_cases hij : j = i
      · subst hij
        obtain rfl : s.finish c x = t := by simpa [World.afterFinish] using ht
        exact hL
      · exact hI.session j t (by rwa [World.afterFinish, World.setSession_of_ne _ hij] at ht)
    · intro f hf
      rcases List.mem_append.1 hf with hf | hf
      · exact hI.finished f hf
      · rwa [List.mem_singleton.1 hf]
  commit w i s hd hI _ hs hc hmay := by
    refine ⟨H.commit w.store _ s hI.store (hI.session i s hs) hc hmay, ?_, hI.finished⟩
    intro j t ht
    have hij : j ≠ i := by
      rintro rfl
      simp [World.afterCommit, World.close] at ht
    have htw : w.sessions j = some t := by
      rwa [World.afterCommit, World.close, World.setSession_of_ne _ hij] at ht
    have hheld : (w.afterCommit i s).Held j = w.Held j :=
      funext fun key ↦ propext (World.held_close_of_ne hij)
    rw [hheld]
    exact H.others w.store _ _ t s hI.store (hI.session j t htw) (hI.session i s hs) hc
      (hd.written j t htw) fun x hx k hk ↦ hd.not_held hij hs hx hk
  rollback w i _ hI _ := by
    refine ⟨hI.store, ?_, hI.finished⟩
    intro j t ht
    by_cases hij : j = i
    · simp [hij, World.close] at ht
    · have hheld : (w.close i).Held j = w.Held j :=
        funext fun key ↦ propext (World.held_close_of_ne hij)
      rw [hheld]
      exact hI.session j t (by rwa [World.close, World.setSession_of_ne _ hij] at ht)

end System

end Transaction
