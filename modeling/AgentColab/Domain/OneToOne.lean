/-!
# Partial one-to-one correspondences

A relation between optional left ends and right ends: a left end has at most one right end, a right
end has one left end or none, and a right end without a left end stays without.
-/

namespace AgentColab

/-- `J a b`: the right end `b` goes with the left end `a`, where there is one. -/
structure OneToOne {α β : Type} (J : Option α → β → Prop) : Prop where
  right : ∀ {a b b'}, J (some a) b → J (some a) b' → b = b'
  left : ∀ {x y b}, J x b → J y b → x = y

namespace OneToOne

variable {α β : Type} {J J' : Option α → β → Prop}

variable {x : Option α} {b : β}

theorem add_old (h : OneToOne J) (hold : J x b) (hJ : ∀ {y c}, J' y c → J y c ∨ y = x ∧ c = b) :
    OneToOne J' := by
  have hsub : ∀ {y c}, J' y c → J y c := by
    intro y c hyc
    rcases hJ hyc with hyc | ⟨rfl, rfl⟩
    · exact hyc
    · exact hold
  exact ⟨fun h₁ h₂ ↦ h.right (hsub h₁) (hsub h₂), fun h₁ h₂ ↦ h.left (hsub h₁) (hsub h₂)⟩

theorem add_new (h : OneToOne J) (hb : ∀ y, ¬J y b) (hx : ∀ a, x = some a → ∀ c, ¬J (some a) c)
    (hJ : ∀ {y c}, J' y c → J y c ∨ y = x ∧ c = b) : OneToOne J' where
  right := by
    intro a c c' h₁ h₂
    rcases hJ h₁ with h₁ | ⟨ha, rfl⟩
    · rcases hJ h₂ with h₂ | ⟨ha, rfl⟩
      · exact h.right h₁ h₂
      · exact absurd h₁ (hx a ha.symm c)
    · rcases hJ h₂ with h₂ | ⟨-, rfl⟩
      · exact absurd h₂ (hx a ha.symm c')
      · rfl
  left := by
    intro y z c h₁ h₂
    rcases hJ h₁ with h₁ | ⟨rfl, rfl⟩
    · rcases hJ h₂ with h₂ | ⟨rfl, rfl⟩
      · exact h.left h₁ h₂
      · exact absurd h₁ (hb y)
    · rcases hJ h₂ with h₂ | ⟨rfl, -⟩
      · exact absurd h₂ (hb z)
      · rfl

end OneToOne

end AgentColab
