import Mathlib.Data.List.Infix
import Mathlib.Logic.Function.Basic

/-!
# The limit on failures

For a key, `record_failure` keeps the start of one window and the number of failures in it. A
failure after the end of the window starts another one, which has lost the failures that are still
recent, and ends a block. Two first failures find no row to lock.

A run is about one key. `log` has the times of the failures since the last reset, the last one
first; it is not stored.
-/

namespace AgentColab.RateLimit

open List Option

/-- `security.rate_limit_failures`, `security.rate_limit_window_s` and
`security.rate_limit_block_s` -/
structure Limits where
  failures : ℕ
  window : ℤ
  block : ℤ

/-- A row of `auth_rate_limits`. -/
structure Row where
  windowStart : ℤ
  failures : ℕ
  blockedUntil : Option ℤ
deriving DecidableEq

/-- `check` of one key: the seconds after which a blocked caller may retry. -/
def check (row : Option Row) (now : ℤ) : Option ℤ :=
  match row.bind Row.blockedUntil with
  | some blockedUntil =>
    if now < blockedUntil then some ((blockedUntil - now) / 1000000 + 1) else none
  | none => none

/-- The row that `record_failure` writes after the one that it has read. -/
def nextRow (c : Limits) (row : Option Row) (now : ℤ) : Row :=
  let (failures, start) := match row with
    | none => (1, now)
    | some row =>
      if row.windowStart < now - c.window then (1, now) else (row.failures + 1, row.windowStart)
  ⟨start, failures, if c.failures ≤ failures then some (now + c.block) else none⟩

/-- `calls` are the open calls of `record_failure`, with the time and the row they have read. -/
structure World where
  clock : ℤ
  row : Option Row
  lock : Option ℕ
  calls : ℕ → Option (ℤ × Option Row)
  log : List ℤ

/-- A call has read the clock before its `SELECT … FOR UPDATE` returns; `commit` is the upsert with
the end of the transaction. -/
inductive Label where
  | tick (d : ℕ)
  | read (i : ℕ) (now : ℤ)
  | commit (i : ℕ)
  | stop (i : ℕ)
  | reset

/-- One statement; `none` when it has to wait. -/
def World.step (c : Limits) (w : World) : Label → Option World
  | .tick d => some { w with clock := w.clock + d }
  | .read i now =>
    if w.calls i = none ∧ now ≤ w.clock ∧ (w.row = none ∨ w.lock = none) then some
      { w with
        lock := if w.row = none then w.lock else some i
        calls := Function.update w.calls i (some (now, w.row)) }
    else none
  | .commit i =>
    match w.calls i with
    | some (now, row) =>
      if w.lock = none ∨ w.lock = some i then some
        { w with
          row := some (nextRow c row now)
          lock := none
          calls := Function.update w.calls i none
          log := now :: w.log }
      else none
    | none => none
  | .stop i => some
      { w with
        lock := if w.lock = some i then none else w.lock
        calls := Function.update w.calls i none }
  | .reset => if w.lock = none then some { w with row := none, log := [] } else none

def World.runLabels (c : Limits) (C : World → Label → Prop) [∀ w l, Decidable (C w l)] (w : World) :
    List Label → Option World
  | [] => some w
  | l :: ls => if C w l then (w.step c l).bind fun w₁ ↦ w₁.runLabels c C ls else none

def World.start : World := ⟨0, none, none, fun _ ↦ none, []⟩

/-! ## What the limit promises -/

/-- As many failures as the limit, the last one within a window of the others. -/
def Burst (c : Limits) (t : ℤ) (before : List ℤ) : Prop :=
  c.failures ≤ before.length + 1 ∧ ∀ s ∈ (t :: before).take c.failures, t - c.window ≤ s

/-- Every burst blocks the key, and the row counts the failures that are still recent. -/
structure Guarded (c : Limits) (w : World) : Prop where
  blocks : ∀ {t before}, t :: before <:+ w.log → Burst c t before → w.clock < t + c.block →
    check w.row w.clock ≠ none
  counts : ∀ {t before}, w.log = t :: before → ∃ row, w.row = some row ∧
    (w.log.filter (t - c.window ≤ ·)).length ≤ row.failures

/-- A failure is written over the row that it has read, in the order of the clock, and starts
another window only when no failure is recent and the key is not blocked. -/
def Careful (c : Limits) (w : World) : Label → Prop
  | .commit i =>
    match w.calls i with
    | some (now, none) => w.row = none ∧ ∀ t ∈ w.log, t ≤ now
    | some (now, some row) => (∀ t ∈ w.log, t ≤ now) ∧
      (row.windowStart < now - c.window →
        (∀ t ∈ w.log, t < now - c.window) ∧ check w.row w.clock = none)
    | none => True
  | _ => True

instance (c : Limits) (w : World) (l : Label) : Decidable (Careful c w l) := by
  unfold Careful
  split
  · split <;> infer_instance
  · infer_instance

/-! ## Runs -/

/-- What the row says of the failures: it counts those of its window, and those before are old. -/
structure Row.Counts (c : Limits) (row : Row) (clock : ℤ) (log : List ℤ) : Prop where
  split : ∃ t recent old, log = t :: recent ++ old ∧ row.failures = recent.length + 1 ∧
    row.windowStart ≤ t ∧ (∀ s ∈ log, s ≤ t) ∧ (∀ s ∈ old, s < row.windowStart - c.window) ∧
    row.blockedUntil = if c.failures ≤ row.failures then some (t + c.block) else none
  due : ∀ t before, t :: before <:+ log → Burst c t before → clock < t + c.block →
    c.failures ≤ row.failures

structure Inv (c : Limits) (w : World) : Prop where
  fresh : w.row = none → w.log = []
  reads : ∀ {i now row}, w.calls i = some (now, some row) → w.lock = some i ∧ w.row = some row
  row : ∀ {row}, w.row = some row → row.Counts c w.clock w.log

variable {c : Limits} {row : Row} {clock now t : ℤ} {log before recent old : List ℤ}
  {w w' : World}

theorem Row.Counts.check_ne (h : row.Counts c clock log) (hsuffix : t :: before <:+ log)
    (hburst : Burst c t before) (hclock : clock < t + c.block) : check (some row) clock ≠ none := by
  obtain ⟨t', recent, old, hlog, -, -, hle, -, hblocked⟩ := h.split
  have ht : t ≤ t' := hle t (hsuffix.subset mem_cons_self)
  rw [if_pos (h.due t before hsuffix hburst hclock)] at hblocked
  simp only [check, bind_some, hblocked, if_pos (show clock < t' + c.block by omega)]
  exact some_ne_none _

theorem Burst.le_of_old (h : Burst c now (recent ++ old)) (hold : ∀ s ∈ old, s < now - c.window) :
    c.failures ≤ recent.length + 1 := by
  by_contra hlt
  obtain ⟨hlength, htake⟩ := h
  rw [length_append] at hlength
  cases old with
  | nil => exact hlt hlength
  | cons s old =>
    have hmem : s ∈ (now :: (recent ++ s :: old)).take c.failures := by
      rw [show c.failures = (now :: recent).length + (c.failures - (recent.length + 1)) by
        simp only [length_cons]; omega, ← cons_append, take_length_add_append]
      rw [show c.failures - (recent.length + 1) = (c.failures - (recent.length + 2)) + 1 by omega]
      simp
    have := htake s hmem
    have := hold s mem_cons_self
    omega

theorem Row.Counts.counted (h : row.Counts c clock log) (hnow : ∀ t ∈ log, t ≤ now)
    (hwindow : ¬row.windowStart < now - c.window) :
    (nextRow c (some row) now).Counts c clock (now :: log) := by
  obtain ⟨t, recent, old, rfl, hfailures, hstart, -, hold, -⟩ := h.split
  have ht : t ≤ now := hnow t (by simp)
  have hnext : nextRow c (some row) now = ⟨row.windowStart, row.failures + 1,
      if c.failures ≤ row.failures + 1 then some (now + c.block) else none⟩ := by
    simp only [nextRow, if_neg hwindow]
  rw [hnext]
  refine
    ⟨⟨now, t :: recent, old, rfl, by simp [hfailures], Int.le_trans hstart ht, ?_, hold, rfl⟩, ?_⟩
  · simpa using hnow
  · intro t' before hsuffix hburst hclock
    rcases suffix_cons_iff.mp hsuffix with heq | hsuffix
    · obtain ⟨rfl, rfl⟩ := List.cons.inj heq
      have := hburst.le_of_old fun s hs ↦ by have := hold s hs; omega
      simp only [length_cons] at this
      rwa [hfailures]
    · exact (h.due t' before hsuffix hburst hclock).trans (Nat.le_succ _)

theorem counts_started {next : Row} (hnext : next = ⟨now, 1,
      if c.failures ≤ 1 then some (now + c.block) else none⟩) (hnow : ∀ t ∈ log, t ≤ now)
    (hold : ∀ t ∈ log, t < now - c.window)
    (hdue : ∀ t before, t :: before <:+ log → Burst c t before → ¬clock < t + c.block) :
    next.Counts c clock (now :: log) := by
  subst hnext
  refine ⟨⟨now, [], log, rfl, rfl, Int.le_refl _, by simpa using hnow, hold, rfl⟩, ?_⟩
  intro t before hsuffix hburst hclock
  rcases suffix_cons_iff.mp hsuffix with heq | hsuffix
  · obtain ⟨rfl, rfl⟩ := List.cons.inj heq
    exact @Burst.le_of_old c _ [] _ hburst hold
  · exact (hdue t before hsuffix hburst hclock).elim

theorem Inv.guarded (h : Inv c w) : Guarded c w := by
  refine ⟨fun {t before} hsuffix hburst hclock ↦ ?_, fun {t before} hlog ↦ ?_⟩
  · cases hrow : w.row with
    | none => rw [h.fresh hrow] at hsuffix; cases suffix_nil.mp hsuffix
    | some row => exact (h.row hrow).check_ne hsuffix hburst hclock
  · cases hrow : w.row with
    | none => rw [h.fresh hrow] at hlog; cases hlog
    | some row =>
      obtain ⟨t', recent, old, hlog', hfailures, hstart, -, hold, -⟩ := (h.row hrow).split
      obtain ⟨rfl, -⟩ := List.cons.inj (hlog.symm.trans hlog')
      have hnone : old.filter (t - c.window ≤ ·) = [] := filter_eq_nil_iff.mpr fun s hs ↦ by
        have := hold s hs
        simp only [decide_eq_true_eq]
        omega
      refine ⟨row, rfl, ?_⟩
      rw [hlog', filter_append, hnone, append_nil, hfailures]
      exact List.length_filter_le _ _

theorem Inv.reads_left (h : Inv c w) {i j : ℕ}
    (hj : Function.update w.calls i none j = some (now, some row)) :
    j ≠ i ∧ w.lock = some j ∧ w.row = some row := by
  by_cases hij : j = i
  · rw [hij, Function.update_self] at hj
    cases hj
  · rw [Function.update_of_ne hij] at hj
    exact ⟨hij, h.reads hj⟩

theorem Inv.written (h : Inv c w) {i : ℕ} {seen : Option Row}
    (hcall : w.calls i = some (now, seen)) (hC : Careful c w (.commit i)) :
    (nextRow c seen now).Counts c w.clock (now :: w.log) := by
  simp only [Careful, hcall] at hC
  cases seen with
  | none =>
    have hlog := h.fresh hC.1
    refine counts_started rfl hC.2 (by simp [hlog]) fun t before hsuffix ↦ ?_
    rw [hlog] at hsuffix
    cases suffix_nil.mp hsuffix
  | some row =>
    have hrow := (h.reads hcall).2
    have hcounts := h.row hrow
    by_cases hwindow : row.windowStart < now - c.window
    · obtain ⟨hold, hopen⟩ := hC.2 hwindow
      refine counts_started (by simp only [nextRow, if_pos hwindow]) hC.1 hold ?_
      exact fun t before hs hb hclock ↦ hcounts.check_ne hs hb hclock (hrow ▸ hopen)
    · exact hcounts.counted hC.1 hwindow

theorem Inv.step (h : Inv c w) {l : Label} (hstep : w.step c l = some w') (hC : Careful c w l) :
    Inv c w' := by
  unfold World.step at hstep
  split at hstep
  case h_1 d =>
    obtain rfl := some.inj hstep
    refine ⟨h.fresh, h.reads, fun hrow ↦ ⟨(h.row hrow).split, fun t before hs hb hclock ↦ ?_⟩⟩
    exact (h.row hrow).due t before hs hb (by dsimp only at hclock; omega)
  case h_2 i now =>
    split at hstep
    · next hread =>
      obtain rfl := some.inj hstep
      refine ⟨h.fresh, fun {j now' row} hj ↦ ?_, h.row⟩
      by_cases hij : j = i
      · subst hij
        obtain ⟨-, hrow⟩ : now = now' ∧ w.row = some row := by simpa using hj
        exact ⟨by simp [hrow], hrow⟩
      · obtain ⟨hlock, hrow⟩ := h.reads ((Function.update_of_ne hij _ _).symm.trans hj)
        simp [hlock, hrow] at hread
    · cases hstep
  case h_3 i =>
    split at hstep
    · next now seen hcall =>
      split_ifs at hstep with hlock
      obtain rfl := some.inj hstep
      refine ⟨fun hrow ↦ (nomatch hrow), fun {j now' row'} hj ↦ ?_, fun hrow ↦ ?_⟩
      · obtain ⟨hij, hlocked, -⟩ := h.reads_left hj
        rcases hlock with hlock | hlock <;> cases hlock.symm.trans hlocked
        exact (hij rfl).elim
      · obtain rfl := some.inj hrow
        exact h.written hcall hC
    · cases hstep
  case h_4 i =>
    obtain rfl := some.inj hstep
    refine ⟨h.fresh, fun {j now row} hj ↦ ?_, h.row⟩
    obtain ⟨hij, hlocked, hrow⟩ := h.reads_left hj
    exact ⟨by simp [hlocked, hij], hrow⟩
  case h_5 =>
    split_ifs at hstep with hlock
    obtain rfl := some.inj hstep
    refine ⟨fun _ ↦ rfl, fun hj ↦ ?_, fun hrow ↦ nomatch hrow⟩
    cases hlock.symm.trans (h.reads hj).1

/-- **In a run of careful calls every burst blocks the key, and no failure is lost.** -/
theorem bursts_blocked {labels : List Label}
    (h : World.start.runLabels c (Careful c) labels = some w) : Guarded c w := by
  have hrun : ∀ {w₀ : World}, Inv c w₀ → w₀.runLabels c (Careful c) labels = some w → Inv c w := by
    clear h
    induction labels with
    | nil => exact fun hinv h ↦ some.inj h ▸ hinv
    | cons l ls ih =>
      intro w₀ hinv h
      rw [World.runLabels] at h
      split_ifs at h with hC
      obtain ⟨w₁, hstep, hrest⟩ := bind_eq_some_iff.mp h
      exact ih (hinv.step hstep hC) hrest
  exact (hrun ⟨fun _ ↦ rfl, by simp [World.start], by simp [World.start]⟩ h).guarded

/-! ## No block without failures -/

/-- A row that was read stays locked and unchanged, no row counts more failures than there were, and
a block is that of the limit and of one failure. -/
structure Honest (c : Limits) (w : World) : Prop where
  reads : ∀ i now row, w.calls i = some (now, some row) → w.lock = some i ∧ w.row = some row
  counts : ∀ row, w.row = some row → row.failures ≤ w.log.length
  blocks : ∀ row u, w.row = some row → row.blockedUntil = some u →
    c.failures ≤ row.failures ∧ ∃ t ∈ w.log, u = t + c.block

theorem Honest.left (h : Honest c w) {i j : ℕ} {now : ℤ} {row : Row}
    (hj : Function.update w.calls i none j = some (now, some row)) :
    j ≠ i ∧ w.lock = some j ∧ w.row = some row := by
  obtain rfl | hij := eq_or_ne j i
  · simp at hj
  · rw [Function.update_of_ne hij] at hj
    exact ⟨hij, h.reads _ _ _ hj⟩

theorem Honest.step (h : Honest c w) {l : Label} (hstep : w.step c l = some w') : Honest c w' := by
  unfold World.step at hstep
  split at hstep
  case h_1 =>
    cases hstep
    exact ⟨h.reads, h.counts, h.blocks⟩
  case h_2 i now =>
    split at hstep
    · next hread =>
      cases hstep
      refine ⟨fun j now' row hj ↦ ?_, h.counts, h.blocks⟩
      obtain rfl | hij := eq_or_ne j i
      · obtain ⟨-, hrow⟩ : now = now' ∧ w.row = some row := by simpa using hj
        exact ⟨by simp [hrow], hrow⟩
      · obtain ⟨hlock, hrow⟩ := h.reads _ _ _ ((Function.update_of_ne hij _ _).symm.trans hj)
        simp [hlock, hrow] at hread
    · cases hstep
  case h_3 i =>
    split at hstep
    · next now seen hcall =>
      split_ifs at hstep with hlock
      cases hstep
      refine ⟨fun j now' row hj ↦ ?_, ?_, ?_⟩
      · obtain ⟨hij, hlocked, -⟩ := h.left hj
        simp [hlocked, hij] at hlock
      · rintro _ ⟨⟩
        -- a row that was read is still the row, and another failure has come
        have hseen : ∀ row, seen = some row → row.failures ≤ w.log.length := by
          rintro row rfl
          exact h.counts row (h.reads i now row hcall).2
        cases seen with
        | none => simp [nextRow]
        | some row =>
          have := hseen row rfl
          simp only [nextRow, length_cons]
          split <;> dsimp only <;> omega
      · rintro _ u ⟨⟩ hu
        change (if c.failures ≤ (nextRow c seen now).failures then _ else _) = _ at hu
        split_ifs at hu with hlimit
        exact ⟨hlimit, now, mem_cons_self, (some.inj hu).symm⟩
    · cases hstep
  case h_4 i =>
    cases hstep
    refine ⟨fun j now row hj ↦ ?_, h.counts, h.blocks⟩
    obtain ⟨hij, hlocked, hrow⟩ := h.left hj
    exact ⟨by simp [hlocked, hij], hrow⟩
  case h_5 =>
    split_ifs at hstep with hlock
    cases hstep
    refine ⟨fun j now row hj ↦ ?_, by simp, by simp⟩
    cases hlock.symm.trans (h.reads j now row hj).1

/-- **Nobody is blocked without failures**: in every interleaving, a key is blocked only if there
were as many failures as the limit since the last reset, and for no longer than the length of a
block after one of them. -/
theorem blocked_after_failures {labels : List Label}
    (h : World.start.runLabels c (fun _ _ ↦ True) labels = some w) {now : ℤ}
    (hblocked : check w.row now ≠ none) :
    c.failures ≤ w.log.length ∧ ∃ t ∈ w.log, now < t + c.block := by
  have hrun : ∀ {w₀ : World}, Honest c w₀ → w₀.runLabels c (fun _ _ ↦ True) labels = some w →
      Honest c w := by
    clear h
    induction labels with
    | nil => exact fun hinv h ↦ some.inj h ▸ hinv
    | cons l ls ih =>
      intro w₀ hinv h
      rw [World.runLabels, if_pos trivial] at h
      obtain ⟨w₁, hstep, hrest⟩ := bind_eq_some_iff.mp h
      exact ih (hinv.step hstep) hrest
  have hw := hrun ⟨by simp [World.start], by simp [World.start], by simp [World.start]⟩ h
  obtain ⟨row, hrow⟩ : ∃ row, w.row = some row := by
    cases hrow : w.row with
    | none => simp [check, hrow] at hblocked
    | some row => exact ⟨row, rfl⟩
  cases hu : row.blockedUntil with
  | none => simp [check, hrow, hu] at hblocked
  | some u =>
    obtain ⟨hlimit, t, ht, rfl⟩ := hw.blocks row u hrow hu
    refine ⟨hlimit.trans (hw.counts row hrow), t, ht, ?_⟩
    by_contra hle
    simp [check, hrow, hu, hle] at hblocked

/-- Three failures in a window of ten seconds block the key for a minute. -/
def limits : Limits := ⟨3, 10000000, 60000000⟩

def failure (d : ℕ) (now : ℤ) : List Label :=
  [.tick (d * 1000000), .read 0 (now * 1000000), .commit 0]

theorem bursts_blocked_thrice : ∃ w, World.start.runLabels limits (Careful limits)
    (failure 0 0 ++ failure 4 4 ++ failure 4 8) = some w ∧ Guarded limits w :=
  ⟨_, rfl, @bursts_blocked limits _ (failure 0 0 ++ failure 4 4 ++ failure 4 8) rfl⟩

/-- The failures at the seconds 8, 12 and 14 come after another one at 0, whose window ends between
them. -/
theorem straddling_burst_not_blocked : ¬∀ labels w,
    World.start.runLabels limits (fun _ _ ↦ True) labels = some w → Guarded limits w := by
  intro h
  have hg := h (failure 0 0 ++ failure 8 8 ++ failure 4 12 ++ failure 2 14) _ rfl
  exact hg.blocks (suffix_refl [14000000, 12000000, 8000000, 0]) ⟨by decide, by decide⟩
    (by decide) rfl

theorem blocked_after_failures_thrice : ∃ w, World.start.runLabels limits (fun _ _ ↦ True)
    (failure 0 0 ++ failure 4 4 ++ failure 4 8) = some w ∧ 3 ≤ w.log.length ∧
      ∃ t ∈ w.log, 67000000 < t + limits.block :=
  ⟨_, rfl, @blocked_after_failures limits _
    (failure 0 0 ++ failure 4 4 ++ failure 4 8) rfl 67000000 (by decide)⟩

end AgentColab.RateLimit
