import Mathlib.Data.List.Basic
import Mathlib.Data.List.Induction

/-!
# Regular expressions as a backtracking matcher reads them

A pattern has, at a place in a text, a list of ways to match, the preferred one first: a repetition
takes as much as it can and gives back one round at a time. Assertions look at the characters around
the place.
-/

namespace AgentColab

open List
open Bool (or_eq_true and_eq_true)

inductive Regex where
  | eps
  | char (p : Char → Bool)
  | seq (r s : Regex)
  | alt (r s : Regex)
  /-- Greedy, at least `least` rounds, at most `most`. -/
  | rep (r : Regex) (least : ℕ) (most : Option ℕ)
  /-- `(?<!p)` -/
  | notBehind (p : Char → Bool)
  /-- `(?!p)` -/
  | notAhead (p : Char → Bool)
  /-- `\b` -/
  | boundary (word : Char → Bool)

namespace Regex

/-- A place in a text: the character before it and the text after it. -/
structure Place where
  prev : Option Char
  rest : List Char

/-- The place where the text goes on with `v`. -/
def Place.append (x : Place) (v : List Char) : Place := { x with rest := x.rest ++ v }

def literal : List Char → Regex
  | [] => eps
  | c :: cs => seq (char (· = c)) (literal cs)

def oneOf : List (List Char) → Regex
  | [] => char fun _ ↦ false
  | [cs] => literal cs
  | cs :: css => alt (literal cs) (oneOf css)

/-- At most `most` rounds, the first way that of the longest. -/
def upTo (f : Place → List Place) : ℕ → ℕ → Place → List Place
  | least, 0, x => if least = 0 then [x] else []
  | least, most + 1, x =>
    (f x).flatMap (upTo f (least - 1) most) ++ if least = 0 then [x] else []

/-- Where a match from this place may end, the preferred end first. -/
def ways : Regex → Place → List Place
  | eps, x => [x]
  | char _, ⟨_, []⟩ => []
  | char p, ⟨_, c :: cs⟩ => if p c then [⟨some c, cs⟩] else []
  | seq r s, x => (ways r x).flatMap (ways s)
  | alt r s, x => ways r x ++ ways s x
  | rep r least most, x => upTo (ways r) least (most.getD (least + x.rest.length)) x
  | notBehind p, x => if x.prev.any p then [] else [x]
  | notAhead p, x => if x.rest.head?.any p then [] else [x]
  | boundary word, x => if x.prev.any word = x.rest.head?.any word then [] else [x]

/-! ## What a match spells -/

/-- The texts that the pattern spells, its assertions aside. -/
def Spells : Regex → List Char → Prop
  | eps, m => m = []
  | char p, m => ∃ c, p c ∧ m = [c]
  | seq r s, m => ∃ a b, m = a ++ b ∧ Spells r a ∧ Spells s b
  | alt r s, m => Spells r m ∨ Spells s m
  | rep r least _, m => ∃ ms : List (List Char), m = ms.flatten ∧ least ≤ ms.length ∧
      ∀ a ∈ ms, Spells r a
  | notBehind _, m | notAhead _, m | boundary _, m => m = []

/-- The character before a place, after a text has been read. -/
def after (prev : Option Char) (m : List Char) : Option Char := m.getLast?.or prev

@[simp] theorem after_cons (prev : Option Char) (c : Char) (m : List Char) :
    after prev (c :: m) = after (some c) m := by
  rw [after, after, List.getLast?_cons]
  cases m.getLast? <;> rfl

theorem after_append (prev : Option Char) (a b : List Char) :
    after prev (a ++ b) = after (after prev a) b := by
  induction a generalizing prev with
  | nil => rfl
  | cons c a ih => rw [cons_append, after_cons, after_cons, ih]

/-- The place `y` comes after `x`, and the pattern spells what is between them. -/
def Reads (spells : List Char → Prop) (x y : Place) : Prop :=
  ∃ m, x.rest = m ++ y.rest ∧ y.prev = after x.prev m ∧ spells m

variable {spells : List Char → Prop} {x y : Place} {f : Place → List Place}

theorem Reads.refl (h : spells []) : Reads spells x x := ⟨[], rfl, rfl, h⟩

theorem mem_stop {least : ℕ} (h : y ∈ if least = 0 then [x] else []) : least = 0 ∧ y = x := by
  split_ifs at h with hleast
  · exact ⟨hleast, mem_singleton.1 h⟩
  · exact absurd h not_mem_nil

def Rounds (spells : List Char → Prop) (least : ℕ) (m : List Char) : Prop :=
  ∃ ms : List (List Char), m = ms.flatten ∧ least ≤ ms.length ∧ ∀ a ∈ ms, spells a

theorem Rounds.none (spells : List Char → Prop) : Rounds spells 0 [] :=
  ⟨[], rfl, Nat.le_refl 0, fun _ ha ↦ absurd ha not_mem_nil⟩

theorem upTo_reads (hf : ∀ x, ∀ y ∈ f x, Reads spells x y) : ∀ (most least : ℕ) {x y : Place},
    y ∈ upTo f least most x → Reads (Rounds spells least) x y := by
  intro most
  induction most with
  | zero =>
    intro least x y hy
    obtain ⟨rfl, rfl⟩ := mem_stop hy
    exact .refl (.none spells)
  | succ _ ih =>
    intro least x y hy
    rcases mem_append.1 hy with hy | hy
    · obtain ⟨z, hz, hy⟩ := mem_flatMap.1 hy
      obtain ⟨a, hxa, hza, ha⟩ := hf x z hz
      obtain ⟨b, hzb, hyb, ms, rfl, hlen, hms⟩ := ih _ hy
      refine ⟨a ++ ms.flatten, by rw [hxa, hzb, append_assoc], by rw [hyb, hza, after_append],
        a :: ms, rfl, by rw [length_cons]; omega, ?_⟩
      intro c hc
      rcases mem_cons.1 hc with rfl | hc
      · exact ha
      · exact hms c hc
    · obtain ⟨rfl, rfl⟩ := mem_stop hy
      exact .refl (.none spells)

theorem ways_reads : ∀ (r : Regex) {x y : Place}, y ∈ ways r x → Reads r.Spells x y := by
  intro r
  induction r with
  | eps =>
    intro x y hy
    obtain rfl := mem_singleton.1 hy
    exact .refl rfl
  | char =>
    rintro ⟨prev, rest⟩ y hy
    cases rest with
    | nil => exact absurd hy not_mem_nil
    | cons c =>
      rw [ways] at hy
      split_ifs at hy with hp
      · obtain rfl := mem_singleton.1 hy
        exact ⟨[c], rfl, rfl, c, hp, rfl⟩
      · exact absurd hy not_mem_nil
  | seq r s ihr ihs =>
    intro x y hy
    obtain ⟨z, hz, hy⟩ := mem_flatMap.1 hy
    obtain ⟨a, hxa, hza, ha⟩ := ihr hz
    obtain ⟨b, hzb, hyb, hb⟩ := ihs hy
    exact ⟨a ++ b, by rw [hxa, hzb, append_assoc], by rw [hyb, hza, after_append],
      a, b, rfl, ha, hb⟩
  | alt r s ihr ihs =>
    intro x y hy
    rcases mem_append.1 hy with hy | hy
    · obtain ⟨a, hxa, hya, ha⟩ := ihr hy
      exact ⟨a, hxa, hya, .inl ha⟩
    · obtain ⟨a, hxa, hya, ha⟩ := ihs hy
      exact ⟨a, hxa, hya, .inr ha⟩
  | rep r _ _ ih =>
    intro x y hy
    exact upTo_reads (fun _ _ h ↦ ih h) _ _ hy
  | notBehind | notAhead | boundary =>
    intro x y hy
    rw [ways] at hy
    split_ifs at hy
    · exact absurd hy not_mem_nil
    · obtain rfl := mem_singleton.1 hy
      exact .refl rfl

/-! ## Characters of a match -/

/-- Some class has the character. -/
def uses (c : Char) : Regex → Bool
  | char p => p c
  | seq r s | alt r s => uses c r || uses c s
  | rep r _ _ => uses c r
  | eps | notBehind _ | notAhead _ | boundary _ => false

def mayEmpty : Regex → Bool
  | char _ => false
  | seq r s => mayEmpty r && mayEmpty s
  | alt r s => mayEmpty r || mayEmpty s
  | rep r least _ => least = 0 || mayEmpty r
  | eps | notBehind _ | notAhead _ | boundary _ => true

/-- A text that is spelled may start with the character. -/
def mayStart (c : Char) : Regex → Bool
  | char p => p c
  | seq r s => mayStart c r || mayEmpty r && mayStart c s
  | alt r s => mayStart c r || mayStart c s
  | rep r _ _ => mayStart c r
  | eps | notBehind _ | notAhead _ | boundary _ => false

/-- A text that is spelled may end with the character. -/
def mayEnd (c : Char) : Regex → Bool
  | char p => p c
  | seq r s => mayEnd c s || mayEmpty s && mayEnd c r
  | alt r s => mayEnd c r || mayEnd c s
  | rep r _ _ => mayEnd c r
  | eps | notBehind _ | notAhead _ | boundary _ => false

theorem Spells.uses : ∀ {r : Regex} {m : List Char} {c : Char}, r.Spells m → c ∈ m →
    r.uses c = true := by
  intro r
  induction r with
  | eps | notBehind | notAhead | boundary =>
    rintro m c rfl hc
    exact absurd hc not_mem_nil
  | char =>
    rintro m c ⟨d, hp, rfl⟩ hc
    obtain rfl := mem_singleton.1 hc
    exact hp
  | seq r s ihr ihs =>
    rintro m c ⟨a, b, rfl, ha, hb⟩ hc
    rw [Regex.uses, or_eq_true]
    exact (mem_append.1 hc).imp (ihr ha) (ihs hb)
  | alt r s ihr ihs =>
    intro m c hm hc
    rw [Regex.uses, or_eq_true]
    exact hm.imp (ihr · hc) (ihs · hc)
  | rep r _ _ ih =>
    rintro m c ⟨ms, rfl, -, hms⟩ hc
    obtain ⟨a, ha, hc⟩ := mem_flatten.1 hc
    exact ih (hms a ha) hc

theorem Spells.mayEmpty : ∀ {r : Regex}, r.Spells [] → r.mayEmpty = true := by
  intro r
  induction r with
  | eps | notBehind | notAhead | boundary => exact fun _ ↦ rfl
  | char =>
    rintro ⟨c, -, h⟩
    exact absurd h.symm (cons_ne_nil _ _)
  | seq r s ihr ihs =>
    rintro ⟨a, b, hab, ha, hb⟩
    obtain ⟨rfl, rfl⟩ := append_eq_nil_iff.1 hab.symm
    rw [Regex.mayEmpty, ihr ha, ihs hb, Bool.and_self]
  | alt r s ihr ihs =>
    intro h
    rw [Regex.mayEmpty, or_eq_true]
    exact h.imp ihr ihs
  | rep r _ _ ih =>
    rintro ⟨ms, hms, hlen, hall⟩
    rw [Regex.mayEmpty, or_eq_true, decide_eq_true_iff]
    cases ms with
    | nil => exact .inl (Nat.le_zero.1 hlen)
    | cons =>
      rw [flatten_cons] at hms
      obtain ⟨rfl, -⟩ := append_eq_nil_iff.1 hms.symm
      exact .inr (ih (hall _ mem_cons_self))

theorem Spells.mayStart : ∀ {r : Regex} {m : List Char} {c : Char}, r.Spells (c :: m) →
    r.mayStart c = true := by
  intro r
  induction r with
  | eps | notBehind | notAhead | boundary => exact fun h ↦ absurd h (cons_ne_nil _ _)
  | char =>
    rintro m c ⟨d, hp, hcd⟩
    rwa [Regex.mayStart, (List.cons.inj hcd).1]
  | seq r s ihr ihs =>
    rintro m c ⟨a, b, hab, ha, hb⟩
    rw [Regex.mayStart, or_eq_true, and_eq_true]
    cases a with
    | nil =>
      rw [nil_append] at hab
      exact .inr ⟨ha.mayEmpty, ihs (hab ▸ hb)⟩
    | cons =>
      obtain ⟨rfl, -⟩ := List.cons.inj hab
      exact .inl (ihr ha)
  | alt r s ihr ihs =>
    intro m c h
    rw [Regex.mayStart, or_eq_true]
    exact h.imp ihr ihs
  | rep r _ _ ih =>
    rintro m c ⟨ms, hms, -, hall⟩
    induction ms with
    | nil => exact absurd hms (cons_ne_nil _ _)
    | cons a _ ihms =>
      cases a with
      | nil => exact ihms hms fun b hb ↦ hall b (mem_cons_of_mem _ hb)
      | cons =>
        obtain ⟨rfl, -⟩ := List.cons.inj hms
        exact ih (hall _ mem_cons_self)

theorem Spells.mayEnd : ∀ {r : Regex} {m : List Char} {c : Char}, r.Spells (m ++ [c]) →
    r.mayEnd c = true := by
  intro r
  induction r with
  | eps | notBehind | notAhead | boundary =>
    exact fun h ↦ absurd h (append_ne_nil_of_right_ne_nil _ (cons_ne_nil _ _))
  | char =>
    rintro m c ⟨d, hp, hcd⟩
    obtain rfl : c = d := by simpa using congrArg List.getLast? hcd
    exact hp
  | seq r s ihr ihs =>
    rintro m c ⟨a, b, hab, ha, hb⟩
    rw [Regex.mayEnd, or_eq_true, and_eq_true]
    rcases eq_nil_or_concat b with rfl | ⟨b, d, rfl⟩
    · rw [append_nil] at hab
      exact .inr ⟨hb.mayEmpty, ihr (hab ▸ ha)⟩
    · rw [concat_eq_append, ← append_assoc] at hab
      obtain ⟨-, hcd⟩ := append_inj' hab rfl
      rw [concat_eq_append, ← hcd] at hb
      exact .inl (ihs hb)
  | alt r s ihr ihs =>
    intro m c h
    rw [Regex.mayEnd, or_eq_true]
    exact h.imp ihr ihs
  | rep r _ _ ih =>
    rintro m c ⟨ms, hms, -, hall⟩
    induction ms using List.reverseRecOn with
    | nil => exact absurd hms (append_ne_nil_of_right_ne_nil _ (cons_ne_nil _ _))
    | append_singleton _ a ihms =>
      rw [flatten_append, flatten_singleton] at hms
      rcases eq_nil_or_concat a with rfl | ⟨a, d, rfl⟩
      · rw [append_nil] at hms
        exact ihms hms fun b hb ↦ hall b (mem_append_left _ hb)
      · rw [concat_eq_append, ← append_assoc] at hms
        obtain ⟨-, hcd⟩ := append_inj' hms rfl
        have hspells := hall _ (mem_append_right _ mem_cons_self)
        rw [concat_eq_append, ← hcd] at hspells
        exact ih hspells

/-! ## Before a character that is not used -/

/-- No class has the character, and no assertion tells it from the end of the text. The rounds of a
repetition without a bound read something. -/
def avoids (c : Char) : Regex → Bool
  | eps | notBehind _ => true
  | char p | notAhead p | boundary p => !p c
  | seq r s | alt r s => avoids c r && avoids c s
  | rep r _ most => avoids c r && (most.isSome || !r.mayEmpty)

theorem ways_length {r : Regex} (hempty : r.mayEmpty = false) (hy : y ∈ ways r x) :
    y.rest.length < x.rest.length := by
  obtain ⟨m, hxy, -, hm⟩ := ways_reads r hy
  rw [hxy, length_append]
  have hne : m ≠ [] := by
    rintro rfl
    rw [hm.mayEmpty] at hempty
    cases hempty
  have := length_pos_iff.2 hne
  omega

theorem upTo_eq_upTo (hf : ∀ x, ∀ y ∈ f x, y.rest.length < x.rest.length) :
    ∀ (most most' least : ℕ) (x : Place),
    least + x.rest.length ≤ most → least + x.rest.length ≤ most' →
    upTo f least most x = upTo f least most' x := by
  -- where no character is left, no round is possible
  have hnone : ∀ x : Place, x.rest.length = 0 → f x = [] := by
    intro x hx
    refine eq_nil_iff_forall_not_mem.2 fun y hy ↦ ?_
    have := hf x y hy
    omega
  intro most
  induction most with
  | zero =>
    intro most' least x h h'
    cases most' with
    | zero => rfl
    | succ => rw [upTo, upTo, hnone x (by omega), flatMap_nil, nil_append]
  | succ _ ih =>
    intro most' least x h h'
    cases most' with
    | zero => rw [upTo, upTo, hnone x (by omega), flatMap_nil, nil_append]
    | succ most' =>
      rw [upTo, upTo]
      congr 1
      refine flatMap_congr fun y hy ↦ ?_
      have := hf x y hy
      exact ih most' (least - 1) y (by omega) (by omega)

theorem upTo_append {w : List Char}
    (hf : ∀ x : Place, f (x.append w) = (f x).map fun y ↦ y.append w) : ∀ (most least : ℕ)
    (x : Place), upTo f least most (x.append w) = (upTo f least most x).map fun y ↦ y.append w := by
  have hstop : ∀ (least : ℕ) (x : Place), (if least = 0 then [x.append w] else []) =
      (if least = 0 then [x] else []).map fun y ↦ y.append w := by
    intro least x
    split_ifs <;> rfl
  intro most
  induction most with
  | zero => exact hstop
  | succ _ ih =>
    intro least x
    rw [upTo, upTo, map_append, ← hstop, hf, flatMap_map, map_flatMap]
    congr 1
    exact flatMap_congr fun y _ ↦ ih (least - 1) y

/-- **The ways before a character that is avoided** are the ways at the end of the text. -/
theorem ways_append {c : Char} : ∀ {r : Regex}, r.avoids c = true → ∀ (v : List Char) (x : Place),
    ways r (x.append (c :: v)) = (ways r x).map fun y ↦ y.append (c :: v) := by
  intro r
  induction r with
  | eps => exact fun _ _ _ ↦ rfl
  | char p | notAhead p =>
    rintro h v ⟨prev, rest⟩
    rw [avoids, Bool.not_eq_true'] at h
    cases rest with
    | nil =>
      change (if p c then _ else _) = _
      rw [h]
      rfl
    | cons d =>
      change (if p d then _ else _) = (if p d then _ else _ : List Place).map _
      cases p d <;> rfl
  | seq r s ihr ihs =>
    intro h v x
    rw [avoids, and_eq_true] at h
    rw [ways, ways, ihr h.1, flatMap_map, map_flatMap]
    exact flatMap_congr fun y _ ↦ ihs h.2 v y
  | alt r s ihr ihs =>
    intro h v x
    rw [avoids, and_eq_true] at h
    rw [ways, ways, ihr h.1, ihs h.2, map_append]
  | rep r least most ih =>
    intro h v x
    rw [avoids, and_eq_true, or_eq_true] at h
    have happend := upTo_append (ih h.1 v)
    rw [ways, ways]
    cases most with
    | some n => exact happend n least x
    | none =>
      have hempty : r.mayEmpty = false := by simpa using h.2
      rw [Option.getD_none, happend]
      refine congrArg _ (upTo_eq_upTo (fun _ _ ↦ ways_length hempty) _ _ least x ?_ (Nat.le_refl _))
      rw [Place.append, length_append]
      omega
  | notBehind p =>
    intro _ v x
    change (if x.prev.any p then _ else _) = (if x.prev.any p then _ else _ : List Place).map _
    split_ifs <;> rfl
  | boundary p =>
    rintro h v ⟨prev, rest⟩
    rw [avoids, Bool.not_eq_true'] at h
    cases rest with
    | nil =>
      change (if prev.any p = p c then _ else _) = (if prev.any p = false then _ else _ :
        List Place).map _
      rw [h]
      split_ifs <;> rfl
    | cons d =>
      change (if prev.any p = p d then _ else _) = (if prev.any p = p d then _ else _ :
        List Place).map _
      split_ifs <;> rfl

/-! ## Looking behind -/

/-- No assertion looks at the character before. -/
def forgets : Regex → Bool
  | eps | char _ | notAhead _ => true
  | seq r s | alt r s => forgets r && forgets s
  | rep r _ _ => forgets r
  | notBehind _ | boundary _ => false

def Place.fresh (x : Place) : Place := { x with prev := none }

theorem flatMap_fresh (hf : ∀ x, (f x).map Place.rest = (f x.fresh).map Place.rest)
    {xs ys : List Place} (h : xs.map Place.rest = ys.map Place.rest) :
    (xs.flatMap f).map Place.rest = (ys.flatMap f).map Place.rest := by
  have hxs : ∀ xs : List Place, (xs.flatMap f).map Place.rest =
      (xs.map Place.rest).flatMap fun rest ↦ (f ⟨none, rest⟩).map Place.rest := by
    intro xs
    rw [map_flatMap, flatMap_map]
    exact flatMap_congr fun x _ ↦ hf x
  rw [hxs, hxs, h]

theorem upTo_fresh (hf : ∀ x, (f x).map Place.rest = (f x.fresh).map Place.rest) :
    ∀ (most least : ℕ) (x : Place),
    (upTo f least most x).map Place.rest = (upTo f least most x.fresh).map Place.rest := by
  intro most
  induction most with
  | zero =>
    intro least x
    rw [upTo, upTo]
    split_ifs <;> rfl
  | succ _ ih =>
    intro least x
    rw [upTo, upTo, map_append, map_append, flatMap_fresh (ih (least - 1)) (hf x)]
    split_ifs <;> rfl

/-- **A pattern that does not look behind** matches the same after any character. -/
theorem ways_fresh : ∀ {r : Regex}, r.forgets = true → ∀ x : Place,
    (ways r x).map Place.rest = (ways r x.fresh).map Place.rest := by
  intro r
  induction r with
  | eps => exact fun _ _ ↦ rfl
  | char =>
    rintro _ ⟨prev, rest⟩
    cases rest <;> rfl
  | seq r s ihr ihs =>
    intro h x
    rw [forgets, and_eq_true] at h
    exact flatMap_fresh (ihs h.2) (ihr h.1 x)
  | alt r s ihr ihs =>
    intro h x
    rw [forgets, and_eq_true] at h
    rw [ways, ways, map_append, map_append, ihr h.1, ihs h.2]
  | rep r least _ ih => exact fun h x ↦ upTo_fresh (ih h) _ least x
  | notAhead =>
    intro _ x
    rw [ways, ways]
    have hrest : x.fresh.rest = x.rest := rfl
    rw [hrest]
    split_ifs <;> rfl
  | notBehind => exact fun h ↦ absurd h Bool.false_ne_true
  | boundary => exact fun h ↦ absurd h Bool.false_ne_true

end Regex
end AgentColab
