import Mathlib.Data.List.Forall2

/-!
# Computations that can fail

A command is a sequence of parts, of which each can raise. The rule for a loop carries what is left
to do along with the state.
-/

namespace AgentColab

variable {α β ε : Type} {x : Except ε α}

theorem bind_eq_ok {f : α → Except ε β} {b : β} :
    x >>= f = .ok b ↔ ∃ a, x = .ok a ∧ f a = .ok b := by
  cases x with
  | error =>
    constructor
    · intro h
      cases h
    · rintro ⟨a, ha, -⟩
      cases ha
  | ok a =>
    constructor
    · intro h
      exact ⟨a, rfl, h⟩
    · rintro ⟨a', ha, h⟩
      obtain rfl := Except.ok.inj ha
      exact h

theorem mapError_eq_ok {ε' : Type} {f : ε → ε'} {a : α} : x.mapError f = .ok a ↔ x = .ok a := by
  cases x with
  | error => exact ⟨nofun, nofun⟩
  | ok => exact ⟨fun h ↦ by cases h; rfl, fun h ↦ by cases h; rfl⟩

/-- What every round of a loop keeps, of the rounds that are left and the state, holds in the
end. -/
theorem foldlM_induction {σ : Type} {f : σ → α → Except ε σ} (P : List α → σ → Prop)
    (hstep : ∀ a rest s s', P (a :: rest) s → f s a = .ok s' → P rest s') {l : List α} {s s' : σ}
    (hl : P l s) (h : l.foldlM f s = .ok s') : P [] s' := by
  induction l generalizing s with
  | nil =>
    obtain rfl := Except.ok.inj h
    exact hl
  | cons a rest ih =>
    rw [List.foldlM_cons] at h
    obtain ⟨s₁, hs₁, hrest⟩ := bind_eq_ok.1 h
    exact ih (hstep a rest s s₁ hl hs₁) hrest

theorem exists_of_mem_left {R : α → β → Prop} {xs : List α} {ys : List β}
    (h : List.Forall₂ R xs ys) : ∀ x ∈ xs, ∃ y ∈ ys, R x y := by
  induction h with
  | nil => exact fun _ hx ↦ absurd hx List.not_mem_nil
  | cons hxy _ ih =>
    refine List.forall_mem_cons.2 ⟨⟨_, List.mem_cons_self, hxy⟩, fun x hx ↦ ?_⟩
    obtain ⟨y, hy, hR⟩ := ih x hx
    exact ⟨y, List.mem_cons_of_mem _ hy, hR⟩

end AgentColab
