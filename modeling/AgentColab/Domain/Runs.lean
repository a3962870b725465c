import Mathlib.Tactic.SplitIfs

/-!
# Runs of checked steps

A list of steps is run one by one, as long as each of them is allowed and can be taken. A relation
that such steps extend relates the two ends of the run.
-/

namespace AgentColab

variable {σ L : Type} {step : σ → L → Option σ} {C : σ → L → Prop} [∀ s l, Decidable (C s l)]
  {run : σ → List L → Option σ} {R : σ → List L → σ → Prop}

theorem related_of_run {ls : List L} {s s' : σ} (h : run s ls = some s')
    (hnil : ∀ s, run s [] = some s)
    (hcons : ∀ s l ls, run s (l :: ls) = if C s l then (step s l).bind (run · ls) else none)
    (nil : ∀ s, R s [] s)
    (cons : ∀ {s s₁ s' l ls}, step s l = some s₁ → C s l → R s₁ ls s' → R s (l :: ls) s') :
    R s ls s' := by
  induction ls generalizing s with
  | nil =>
    obtain rfl := Option.some.inj ((hnil s).symm.trans h)
    exact nil s
  | cons l _ ih =>
    rw [hcons] at h
    split_ifs at h with hC
    obtain ⟨s₁, hstep, hrest⟩ := Option.bind_eq_some_iff.1 h
    exact cons hstep hC (ih hrest)

end AgentColab
