import Mathlib.Data.List.Nodup
import Mathlib.Logic.Relation

/-!
# Round robin over a growing order

Whose turn it is is computed from the number of turns so far, modulo the length of the order, which
only grows, at its end: `Steady` says when it then stays with the same one, or comes to the new one
at the end of a round.
-/

namespace AgentColab

open List Option

structure RoundRobin (α : Type) where
  order : List α
  index : ℕ
  spoken : List α

namespace RoundRobin

variable {α : Type}

def cursor (r : RoundRobin α) : ℕ := r.index % r.order.length

/-- Whose turn it is. -/
def holder (r : RoundRobin α) : Option α := r.order[r.cursor]?

/-- One more at the end of `n` leaves the turn where it is, or, when a round is over, gets it. With
a single one before, who has spoken must not be the next. -/
def Steady (n index : ℕ) : Prop :=
  index % (n + 1) = index % n ∧ (n ≠ 1 ∨ index = 0) ∨ index % n = 0 ∧ index % (n + 1) = n

instance (n index : ℕ) : Decidable (Steady n index) :=
  inferInstanceAs (Decidable (_ ∨ _))

inductive Step : RoundRobin α → RoundRobin α → Prop
  | speak {r : RoundRobin α} {a : α} (h : r.holder = some a) :
      Step r ⟨r.order, r.index + 1, r.spoken ++ [a]⟩
  | join {r : RoundRobin α} {a : α} (hnew : a ∉ r.order) (h : Steady r.order.length r.index) :
      Step r ⟨r.order ++ [a], r.index, r.spoken⟩

/-! ## The next is another -/

structure Sound (r : RoundRobin α) : Prop where
  nodup : r.order.Nodup
  counted : r.index = r.spoken.length
  known : ∀ a ∈ r.spoken, a ∈ r.order
  moved : ∀ a, r.spoken.getLast? = some a → 2 ≤ r.order.length → r.holder ≠ some a

variable {r r' : RoundRobin α}

variable {l : List α} {i j n : ℕ} {a b : α}

theorem eq_of_getElem? (hl : l.Nodup) (hi : l[i]? = some a) (hj : l[j]? = some a) : i = j := by
  obtain ⟨hi, rfl⟩ := List.getElem?_eq_some_iff.1 hi
  obtain ⟨hj, heq⟩ := List.getElem?_eq_some_iff.1 hj
  exact (hl.getElem_inj_iff.1 heq).symm

theorem succ_mod (index : ℕ) (hn : 0 < n) :
    (index + 1) % n = if index % n + 1 = n then 0 else index % n + 1 := by
  have hlt := Nat.mod_lt index hn
  rw [Nat.add_mod]
  split_ifs with h
  · rcases Nat.lt_or_ge 1 n with h1 | h1
    · rw [Nat.mod_eq_of_lt h1, h, Nat.mod_self]
    · obtain rfl : n = 1 := by omega
      exact Nat.mod_one _
  · have h1 : 1 < n := by omega
    rw [Nat.mod_eq_of_lt h1, Nat.mod_eq_of_lt (by omega)]

theorem Sound.step (hr : r.Sound) (h : Step r r') : r'.Sound := by
  cases h with
  | @speak a h =>
    have hmem : a ∈ r.order := mem_of_getElem? h
    refine ⟨hr.nodup, ?_, ?_, ?_⟩
    · simp [hr.counted]
    · intro b hb
      rcases mem_append.1 hb with hb | hb
      · exact hr.known b hb
      · exact mem_singleton.1 hb ▸ hmem
    · intro b hb htwo hholder
      obtain rfl : a = b := by simpa using hb
      have heq : (r.index + 1) % r.order.length = r.index % r.order.length :=
        eq_of_getElem? hr.nodup hholder h
      replace htwo : 2 ≤ r.order.length := htwo
      rw [succ_mod _ (by omega)] at heq
      split_ifs at heq with hlast <;> omega
  | @join a hnew h =>
    refine ⟨?_, hr.counted, fun b hb ↦ mem_append_left _ (hr.known b hb), ?_⟩
    · exact hr.nodup.append (nodup_singleton a) (by simpa using hnew)
    · intro b hb htwo hholder
      have hspoken : b ∈ r.spoken := mem_of_getLast? hb
      have hb' := hr.known b hspoken
      have hindex : r.index ≠ 0 := by
        rw [hr.counted]
        exact Nat.ne_of_gt (length_pos_of_mem hspoken)
      have hpos : 0 < r.order.length := length_pos_of_mem hb'
      simp only [holder, cursor, length_append, length_singleton] at hholder
      rcases h with ⟨hsame, hmany⟩ | ⟨-, hend⟩
      · rw [hsame, List.getElem?_append_left (Nat.mod_lt _ hpos)] at hholder
        exact hr.moved b hb (by omega) hholder
      · rw [hend, List.getElem?_concat_length] at hholder
        exact hnew (some.inj hholder ▸ hb')

/-! ## Runs -/

theorem Step.order (h : Step r r') : r.order <+: r'.order := by
  cases h with
  | speak => exact prefix_rfl
  | join => exact prefix_append _ _

abbrev Run (r r' : RoundRobin α) : Prop := Relation.ReflTransGen Step r r'

theorem Run.sound (hr : r.Sound) (h : Run r r') : r'.Sound := by
  induction h with
  | refl => exact hr
  | tail _ hstep ih => exact ih.step hstep

theorem Run.order (h : Run r r') : r.order <+: r'.order := by
  induction h with
  | refl => exact prefix_rfl
  | tail _ hstep ih => exact ih.trans hstep.order

theorem getElem?_of_initial {l' : List α} (h : l <+: l') (hi : l[i]? = some a) :
    l'[i]? = some a := by
  obtain ⟨t, rfl⟩ := h
  rwa [List.getElem?_append_left (List.getElem?_eq_some_iff.1 hi).1]

/-! ## Two take turns alternately -/

/-- The second of two positions has the turn before the first. -/
def between (r : RoundRobin α) (i j : ℕ) : ℕ := if i < r.cursor ∧ r.cursor ≤ j then 1 else 0

theorem between_le_one (r : RoundRobin α) (i j : ℕ) : r.between i j ≤ 1 := by
  rw [between]
  split_ifs <;> omega

theorem balance_advance {c next : ℕ} (hc : c < n) (hij : i < j) (hj : j < n)
    (hnext : next = if c + 1 = n then 0 else c + 1) :
    (if c = i then 1 else 0) + (if i < c ∧ c ≤ j then 1 else 0) =
      (if c = j then 1 else 0) + (if i < next ∧ next ≤ j then 1 else 0) := by
  split_ifs at hnext ⊢ <;> omega

variable [DecidableEq α]

/-- What is spoken in a step is balanced by the cursor, for any two in the order. -/
theorem Step.balance (h : Step r r') (hr : r.order.Nodup) (hij : i < j) (hi : r.order[i]? = some a)
    (hj : r.order[j]? = some b) :
    ∃ s, r'.spoken = r.spoken ++ s ∧ s.count a + r.between i j = s.count b + r'.between i j := by
  have hlt : j < r.order.length := (List.getElem?_eq_some_iff.1 hj).1
  cases h with
  | @speak x h =>
    refine ⟨[x], rfl, ?_⟩
    have ha : x = a ↔ r.index % r.order.length = i :=
      ⟨fun hx ↦ eq_of_getElem? hr (hx ▸ h) hi, fun hc ↦ by
        rw [holder, cursor, hc, hi] at h
        exact (some.inj h).symm⟩
    have hb : x = b ↔ r.index % r.order.length = j :=
      ⟨fun hx ↦ eq_of_getElem? hr (hx ▸ h) hj, fun hc ↦ by
        rw [holder, cursor, hc, hj] at h
        exact (some.inj h).symm⟩
    have hmod := Nat.mod_lt r.index (Nat.zero_lt_of_lt hlt)
    simp only [count_singleton, beq_iff_eq, ha, hb]
    exact balance_advance hmod hij hlt (succ_mod r.index (Nat.zero_lt_of_lt hlt))
  | @join x _ h =>
    refine ⟨[], (append_nil _).symm, ?_⟩
    have hcursor : r.cursor < r.order.length := Nat.mod_lt _ (Nat.zero_lt_of_lt hlt)
    have hnext : cursor ⟨r.order ++ [x], r.index, r.spoken⟩ = r.index % (r.order.length + 1) := by
      rw [cursor, length_append, length_singleton]
    have hbetween : r.between i j = between ⟨r.order ++ [x], r.index, r.spoken⟩ i j := by
      refine if_congr ?_ rfl rfl
      rw [hnext]
      rcases h with ⟨hsame, -⟩ | ⟨hzero, hend⟩
      · rw [hsame, cursor]
      · rw [hend, cursor, hzero]
        omega
    rw [count_nil, count_nil, hbetween]

theorem Run.balance (h : Run r r') (hr : r.Sound) (hij : i < j) (hi : r.order[i]? = some a)
    (hj : r.order[j]? = some b) :
    ∃ s, r'.spoken = r.spoken ++ s ∧ s.count a + r.between i j = s.count b + r'.between i j := by
  induction h with
  | refl => exact ⟨[], (append_nil _).symm, rfl⟩
  | tail hrun hstep ih =>
    obtain ⟨s, hs, hcount⟩ := ih
    obtain ⟨s', hs', hcount'⟩ := hstep.balance (Run.sound hr hrun).nodup hij
      (getElem?_of_initial (Run.order hrun) hi) (getElem?_of_initial (Run.order hrun) hj)
    refine ⟨s ++ s', by rw [hs', hs, append_assoc], ?_⟩
    rw [List.count_append, List.count_append]
    omega

/-- In every stretch of a run, two that are in the order from its beginning have equally many
turns, up to one. -/
theorem Run.fair (h : Run r r') (hr : r.Sound) (ha : a ∈ r.order) (hb : b ∈ r.order) {s : List α}
    (hs : r'.spoken = r.spoken ++ s) : s.count a ≤ s.count b + 1 := by
  obtain ⟨i, hi⟩ := mem_iff_getElem?.1 ha
  obtain ⟨j, hj⟩ := mem_iff_getElem?.1 hb
  rcases Nat.lt_trichotomy i j with hij | rfl | hij
  · obtain ⟨s', hs', hcount⟩ := h.balance hr hij hi hj
    obtain rfl := append_cancel_left (hs.symm.trans hs')
    have := between_le_one r' i j
    omega
  · obtain rfl := some.inj (hi.symm.trans hj)
    omega
  · obtain ⟨s', hs', hcount⟩ := h.balance hr hij hj hi
    obtain rfl := append_cancel_left (hs.symm.trans hs')
    have := between_le_one r j i
    omega

end RoundRobin

end AgentColab
