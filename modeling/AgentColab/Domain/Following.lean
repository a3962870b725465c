import Mathlib.Computability.StateTransition
import Mathlib.Data.List.Nodup
import Mathlib.Order.Bounds.Basic

/-!
# Following a partial function

A loop follows a partial function and remembers what it has seen: it stops where the function ends,
and at the first state that it has seen before. What it has seen by then is all that the first state
reaches.
-/

namespace AgentColab.Following

open Relation StateTransition List

variable {σ : Type*} {f g : σ → Option σ} {a b r s : σ}

/-- Following `f` from here never ends. -/
def Endless (f : σ → Option σ) (a : σ) : Prop := ∀ b, Reaches f a b → (f b).isSome

theorem reaches_of_edge (h : f a = some b) (c : σ) : Reaches f a c ↔ c = a ∨ Reaches f b c := by
  constructor
  · intro hc
    obtain rfl | ⟨b', hb', hc⟩ := ReflTransGen.cases_head hc
    · exact .inl rfl
    · obtain rfl := Option.mem_unique hb' h
      exact .inr hc
  · rintro (rfl | hc)
    · exact .refl
    · exact .head h hc

theorem endless_of_edge (h : f a = some b) : Endless f a ↔ Endless f b := by
  simp only [Endless, reaches_of_edge h]
  constructor
  · intro ha c hc
    exact ha c (.inr hc)
  · rintro hb c (rfl | hc)
    · simp [h]
    · exact hb c hc

theorem reaches_congr (h : ∀ b, Reaches f a b → g b = f b) {c : σ} (hc : Reaches f a c) :
    Reaches g a c := by
  induction hc with
  | refl => exact .refl
  | tail hb hbc ih =>
    refine .tail ih ?_
    rw [h _ hb]
    exact hbc

theorem reaches_congr_iff (h : ∀ b, Reaches f a b → g b = f b) (c : σ) :
    Reaches g a c ↔ Reaches f a c := by
  refine ⟨fun hc ↦ ?_, reaches_congr h⟩
  induction hc with
  | refl => exact .refl
  | tail _ hbc ih =>
    rw [h _ ih] at hbc
    exact .tail ih hbc

theorem not_endless (h : r ∈ eval f a) : ¬ Endless f a := by
  obtain ⟨hr, hend⟩ := mem_eval.1 h
  intro ha
  simpa [hend] using ha r hr

/-! ## The loop -/

/-- What the loop has seen on its way from `a`. -/
structure OnTheWay (f : σ → Option σ) (a : σ) (w : σ × List σ) : Prop where
  nodup : w.2.Nodup
  next : ∀ b ∈ w.2, ∃ c, f b = some c ∧ (c ∈ w.2 ∨ c = w.1)
  reaches : ∀ b, Reaches f a b ↔ b ∈ w.2 ∨ Reaches f w.1 b

theorem onTheWay_start (f : σ → Option σ) (a : σ) : OnTheWay f a (a, []) where
  nodup := nodup_nil
  next := fun _ hb ↦ absurd hb not_mem_nil
  reaches := by simp

variable {w : σ × List σ}

/-- The loop sees no more states than there are with a next one. -/
theorem OnTheWay.length_le (hw : OnTheWay f a w) {keys : List σ}
    (hkeys : ∀ b c, f b = some c → b ∈ keys) : w.2.length ≤ keys.length := by
  refine (hw.nodup.subperm fun b hb ↦ ?_).length_le
  obtain ⟨c, hc, -⟩ := hw.next b hb
  exact hkeys b c hc

theorem OnTheWay.reaches_of_mem (hw : OnTheWay f a w) (hback : w.1 ∈ w.2) (b : σ) :
    Reaches f a b ↔ b ∈ w.2 := by
  rw [hw.reaches, or_iff_left_of_imp]
  intro hb
  induction hb with
  | refl => exact hback
  | tail _ hbc ih =>
    obtain ⟨c, hc, hin⟩ := hw.next _ ih
    obtain rfl := Option.mem_unique hc hbc
    rcases hin with hin | rfl
    · exact hin
    · exact hback

theorem OnTheWay.endless (hw : OnTheWay f a w) (hback : w.1 ∈ w.2) : Endless f a := by
  intro b hb
  obtain ⟨c, hc, -⟩ := hw.next b ((hw.reaches_of_mem hback b).1 hb)
  simp [hc]

section Round

variable [DecidableEq σ]

/-- A round of the loop, of the current state and those it has seen. -/
def round (f : σ → Option σ) : σ × List σ → Option (σ × List σ)
  | (current, seen) =>
    match f current with
    | none => none
    | some next => if current ∈ seen then none else some (next, seen ++ [current])

variable {w w' : σ × List σ}

theorem round_eq_some :
    round f w = some w' ↔ ∃ c, f w.1 = some c ∧ w.1 ∉ w.2 ∧ w' = (c, w.2 ++ [w.1]) := by
  obtain ⟨current, seen⟩ := w
  cases hf : f current with
  | none => simp [round, hf]
  | some => by_cases hs : current ∈ seen <;> simp [round, hf, hs, eq_comm]

theorem round_eq_none : round f w = none ↔ f w.1 = none ∨ w.1 ∈ w.2 := by
  obtain ⟨current, seen⟩ := w
  cases hf : f current with
  | none => simp [round, hf]
  | some => by_cases hs : current ∈ seen <;> simp [round, hf, hs]

theorem OnTheWay.forward (hw : OnTheWay f a w) (h : round f w = some w') : OnTheWay f a w' := by
  obtain ⟨c, hc, hnew, rfl⟩ := round_eq_some.1 h
  constructor
  · exact nodup_append.2 ⟨hw.nodup, nodup_singleton _, by
      rintro b hb _ hb' rfl
      exact hnew (mem_singleton.1 hb' ▸ hb)⟩
  · intro b hb
    rcases mem_append.1 hb with hb | hb
    · obtain ⟨d, hd, hin⟩ := hw.next b hb
      exact ⟨d, hd, .inl (by simpa using hin)⟩
    · obtain rfl := mem_singleton.1 hb
      exact ⟨c, hc, .inr rfl⟩
  · intro b
    rw [hw.reaches, reaches_of_edge hc, mem_append, mem_singleton, or_assoc]

theorem OnTheWay.rounds (hw : OnTheWay f a w) (h : Reaches (round f) w w') : OnTheWay f a w' := by
  induction h with
  | refl => exact hw
  | tail _ hround ih => exact ih.forward hround

theorem OnTheWay.mem_of_over (hw : OnTheWay f a w) (hover : round f w = none) (hab : Reaches f a b)
    (hb : f b ≠ none) : b ∈ w.2 := by
  rcases round_eq_none.1 hover with hend | hback
  · rcases (hw.reaches b).1 hab with hb' | hb'
    · exact hb'
    · obtain rfl | ⟨c, hc, -⟩ := ReflTransGen.cases_head hb'
      · exact absurd hend hb
      · simp [hend] at hc
  · exact (hw.reaches_of_mem hback b).1 hab

end Round

/-! ## Representatives -/

section Represents

variable [LinearOrder σ]

/-- Where following ends, or else the least of what is met on the way. -/
def Represents (f : σ → Option σ) (a r : σ) : Prop :=
  r ∈ eval f a ∨ Endless f a ∧ IsLeast {b | Reaches f a b} r

theorem Represents.unique (hr : Represents f a r) (hs : Represents f a s) : r = s := by
  rcases hr with hr | ⟨ha, hr⟩ <;> rcases hs with hs | ⟨ha', hs⟩
  · exact Part.mem_unique hr hs
  · exact absurd ha' (not_endless hr)
  · exact absurd ha (not_endless hs)
  · exact hr.unique hs

theorem Represents.congr (h : ∀ b, Reaches f a b → g b = f b) (hr : Represents f a r) :
    Represents g a r := by
  rcases hr with hr | ⟨ha, hr⟩
  · obtain ⟨hreach, hend⟩ := mem_eval.1 hr
    exact .inl (mem_eval.2 ⟨reaches_congr h hreach, (h r hreach).trans hend⟩)
  · refine .inr ⟨fun b hb ↦ ?_, ?_⟩
    · have hb' := (reaches_congr_iff h b).1 hb
      rw [h b hb']
      exact ha b hb'
    · simpa only [reaches_congr_iff h] using hr

/-- **Neighbours have one representative** unless the way is endless and the first of them is less
than all that follows it. -/
theorem Represents.eq_iff (h : f a = some b) (hr : Represents f a r) (hs : Represents f b s) :
    r = s ↔ (Endless f a → ∃ c, Reaches f b c ∧ c ≤ a) := by
  rcases hr with hr | ⟨ha, hr⟩
  · refine iff_of_true ?_ fun ha ↦ absurd ha (not_endless hr)
    rw [reaches_eval (ReflTransGen.single h)] at hr
    exact Represents.unique (.inl hr) hs
  · rcases hs with hs | ⟨-, hs⟩
    · exact absurd ((endless_of_edge h).1 ha) (not_endless hs)
    have hle : r ≤ s := hr.2 ((reaches_of_edge h s).2 (.inr hs.1))
    constructor
    · rintro rfl -
      exact ⟨r, hs.1, hr.2 .refl⟩
    · intro hmet
      obtain ⟨c, hc, hca⟩ := hmet ha
      refine hle.antisymm ?_
      rcases (reaches_of_edge h r).1 hr.1 with rfl | hbr
      · exact (hs.2 hc).trans hca
      · exact hs.2 hbr

theorem isLeast_foldl (l : List σ) (a : σ) :
    IsLeast {b | b ∈ a :: l} (l.foldl (fun a b ↦ if b < a then b else a) a) := by
  induction l generalizing a with
  | nil => simp
  | cons b l ih =>
    obtain ⟨hmem, hle⟩ := ih (if b < a then b else a)
    rw [foldl_cons]
    constructor
    · rcases mem_cons.1 hmem with hmem | hmem
      · rw [hmem]
        split_ifs <;> simp
      · exact mem_cons_of_mem _ (mem_cons_of_mem _ hmem)
    · have hfirst : (if b < a then b else a) ≤ a ∧ (if b < a then b else a) ≤ b := by
        split_ifs with hba
        · exact ⟨hba.le, le_rfl⟩
        · exact ⟨le_rfl, not_lt.1 hba⟩
      rintro c hc
      simp only [Set.mem_ofPred_eq, mem_cons] at hc
      rcases hc with rfl | rfl | hc
      · exact (hle mem_cons_self).trans hfirst.1
      · exact (hle mem_cons_self).trans hfirst.2
      · exact hle (mem_cons_of_mem _ hc)

end Represents

end AgentColab.Following
