import AgentColab.Schedules.Parse
import Mathlib.Data.List.TakeWhile

/-!
# The grammar of cron expressions

The grammar is stated for digits of any kind: the documented one has the ASCII digits, and the
parser follows the one with the decimal digits of every script, except that it fails on a number
with too many digits.
-/

namespace AgentColab.Schedules

open AgentColab List

/-! ## Grammar -/

section Grammar

variable (digit : Char → Bool)

/-- A nonempty run of digits, and the number that it stands for. -/
structure Numeral (t : List Char) (n : ℕ) : Prop where
  nonempty : t ≠ []
  digits : ∀ c ∈ t, digit c = true
  value : numeralValue t = n

/-- `*`, `n` or `a-b`. -/
inductive Base (f : Field) : List Char → ℕ → ℕ → Prop where
  | all : Base f ['*'] f.low f.high
  | single {t : List Char} {n : ℕ} (numeral : Numeral digit t n) (low_le : f.low ≤ n)
      (le_high : n ≤ f.high) : Base f t n n
  | range {t u : List Char} {a b : ℕ} (first : Numeral digit t a) (last : Numeral digit u b)
      (low_le : f.low ≤ a) (le : a ≤ b) (le_high : b ≤ f.high) : Base f (t ++ '-' :: u) a b

/-- **An item**: `*`, `n`, `a-b`, `*/k` or `a-b/k`. -/
inductive ItemText (f : Field) : List Char → ℕ → ℕ → ℕ → Prop where
  | plain {t : List Char} {a b : ℕ} (base : Base digit f t a b) : ItemText f t a b 1
  | stepped {t u : List Char} {a b k : ℕ} (base : Base digit f t a b)
      (many : t = ['*'] ∨ '-' ∈ t) (step : Numeral digit u k) (pos : 1 ≤ k) :
      ItemText f (t ++ '/' :: u) a b k

/-- The numbers from `a` to `b` in steps of `k`. -/
def progression (a b k : ℕ) : Set ℕ := {v | ∃ i, v = a + k * i ∧ v ≤ b}

/-- **A field**: a comma list of items, and the union of what they denote. -/
def FieldText (f : Field) (text : List Char) (values : Set ℕ) : Prop :=
  ∃ items : List (List Char × ℕ × ℕ × ℕ), items ≠ [] ∧ text = [','].intercalate (items.map (·.1)) ∧
    (∀ i ∈ items, ItemText digit f i.1 i.2.1 i.2.2.1 i.2.2.2) ∧
    values = {v | ∃ i ∈ items, v ∈ progression i.2.1 i.2.2.1 i.2.2.2}

end Grammar

/-- The tokens of a text, with white space around and between them. -/
inductive Separated : List Char → List (List Char) → Prop where
  | nil {w : List Char} (blank : ∀ c ∈ w, isSpace c = true) : Separated w []
  | cons {w t rest : List Char} {ts : List (List Char)} (blank : ∀ c ∈ w, isSpace c = true)
      (nonempty : t ≠ []) (solid : ∀ c ∈ t, isSpace c = false)
      (apart : ∀ c ∈ rest.head?, isSpace c = true) (tail : Separated rest ts) :
      Separated (w ++ (t ++ rest)) (t :: ts)

/-- **An expression**: five fields. -/
def IsExpression (digit : Char → Bool) (s : List Char) (cron : CronExpression) : Prop :=
  ∃ minute hour dayOfMonth month dayOfWeek : List Char,
    Separated s [minute, hour, dayOfMonth, month, dayOfWeek] ∧
    FieldText digit .minute minute {v | v ∈ cron.minutes} ∧
    FieldText digit .hour hour {v | v ∈ cron.hours} ∧
    FieldText digit .dayOfMonth dayOfMonth {v | v ∈ cron.daysOfMonth} ∧
    FieldText digit .month month {v | v ∈ cron.months} ∧
    FieldText digit .dayOfWeek dayOfWeek {v | v ∈ cron.daysOfWeek} ∧
    (cron.domRestricted = true ↔ dayOfMonth ≠ ['*']) ∧
    (cron.dowRestricted = true ↔ dayOfWeek ≠ ['*'])

/-! ## Digits -/

variable {c : Char} {s w : List Char} {ts : List (List Char)}

theorem isDecimal_iff :
    isDecimal c = true ↔ ∃ first ∈ decimalZeros, first ≤ c.toNat ∧ c.toNat < first + 10 := by
  simp [isDecimal, List.any_eq_true]

theorem decimalZeros_ascii : ∀ first ∈ decimalZeros, first = 48 ∨ 128 ≤ first := by decide

theorem isDecimal_ascii (hc : c.toNat < 128) : isDecimal c = c.isDigit := by
  have hmem : 48 ∈ decimalZeros := by decide
  rw [Bool.eq_iff_iff, isDecimal_iff]
  have hdigit : c.isDigit = true ↔ 48 ≤ c.toNat ∧ c.toNat < 58 := by
    rw [Char.isDigit, Bool.and_eq_true, decide_eq_true_iff, decide_eq_true_iff]
    change 48 ≤ c.val.toNat ∧ c.val.toNat ≤ 57 ↔ _
    change 48 ≤ c.toNat ∧ c.toNat ≤ 57 ↔ _
    omega
  rw [hdigit]
  constructor
  · rintro ⟨first, hfirst, hle, hlt⟩
    rcases decimalZeros_ascii first hfirst with rfl | hbig <;> omega
  · exact fun h ↦ ⟨48, hmem, h.1, by omega⟩

theorem toNat_of_isDecimal (h : isDecimal c = true) :
    48 ≤ c.toNat ∧ c.toNat < 58 ∨ 128 ≤ c.toNat := by
  obtain ⟨first, hfirst, hle, hlt⟩ := isDecimal_iff.1 h
  rcases decimalZeros_ascii first hfirst with rfl | hbig <;> omega

theorem isDecimal_of_isDigit (h : c.isDigit = true) : isDecimal c = true := by
  have hc : c.toNat < 128 := by
    rw [Char.isDigit, Bool.and_eq_true, decide_eq_true_iff, decide_eq_true_iff] at h
    change 48 ≤ c.toNat ∧ c.toNat ≤ 57 at h
    omega
  rw [isDecimal_ascii hc, h]

theorem plain_of_mark : ∀ c ∈ ['*', '-', '/', ','],
    isDecimal c = false ∧ c ∉ extended ∧ c.isAlpha = false := by
  simp only [mem_cons, not_mem_nil, or_false, forall_eq_or_imp, forall_eq]
  decide

theorem plain_of_extended : ∀ c ∈ extended, isDecimal c = false ∧ isSpace c = false := by
  simp only [extended, mem_cons, not_mem_nil, or_false, forall_eq_or_imp, forall_eq]
  decide

theorem toNat_of_isAlpha (h : c.isAlpha = true) :
    65 ≤ c.toNat ∧ c.toNat ≤ 90 ∨ 97 ≤ c.toNat ∧ c.toNat ≤ 122 := by
  delta Char.isAlpha Char.isUpper Char.isLower at h
  simp only [Bool.or_eq_true, Bool.and_eq_true, decide_eq_true_iff] at h
  exact h

theorem isSpace_of_isDecimal (h : isDecimal c = true) : isSpace c = false := by
  obtain ⟨first, hfirst, hle, hlt⟩ := isDecimal_iff.1 h
  by_contra hspace
  rw [Bool.not_eq_false, isSpace, decide_eq_true_iff] at hspace
  have hapart : ∀ first ∈ decimalZeros, ∀ n ∈ [9, 10, 11, 12, 13, 28, 29, 30, 31, 32, 133, 160,
      5760, 8192, 8193, 8194, 8195, 8196, 8197, 8198, 8199, 8200, 8201, 8202, 8232, 8233, 8239,
      8287, 12288], ¬(first ≤ n ∧ n < first + 10) := by decide
  exact hapart first hfirst _ hspace ⟨hle, hlt⟩

/-! ## Tokens -/

theorem tokens_space (hc : isSpace c = true) (s : List Char) : tokens (c :: s) = tokens s := by
  rw [tokens, splitOnP_cons_eq_if_modifyHead, if_pos hc, filter_cons_of_neg (by simp), tokens]

theorem tokens_blank (hw : ∀ c ∈ w, isSpace c = true) (s : List Char) :
    tokens (w ++ s) = tokens s := by
  induction w with
  | nil => rfl
  | cons c w ih =>
    rw [cons_append, tokens_space (hw c mem_cons_self)]
    exact ih fun d hd ↦ hw d (mem_cons_of_mem c hd)

theorem tokens_solid {t rest : List Char} (hne : t ≠ []) (ht : ∀ c ∈ t, isSpace c = false)
    (hrest : ∀ c ∈ rest.head?, isSpace c = true) : tokens (t ++ rest) = t :: tokens rest := by
  cases rest with
  | nil =>
    rw [append_nil, tokens, splitOnP_eq_singleton ht, filter_cons_of_pos (by simpa)]
    rfl
  | cons c =>
    have hc := hrest c rfl
    rw [tokens, splitOnP_append_cons_of_forall_mem ht c hc, filter_cons_of_pos (by simpa),
      tokens_space hc, tokens]

theorem tokens_of_separated (h : Separated s ts) : tokens s = ts := by
  induction h with
  | @nil w blank =>
    have hw := tokens_blank blank []
    rwa [append_nil] at hw
  | cons blank nonempty solid apart _ ih =>
    rw [tokens_blank blank, tokens_solid nonempty solid apart, ih]

theorem separated_tokens (s : List Char) : Separated s (tokens s) := by
  induction hlen : s.length using Nat.strongRecOn generalizing s with
  | ind n ih =>
    have hblank : ∀ c ∈ s.takeWhile isSpace, isSpace c = true := fun c hc ↦
      mem_takeWhile_imp hc
    have hsplit := takeWhile_append_dropWhile (p := isSpace) (l := s)
    generalize s.takeWhile isSpace = w at hblank hsplit
    cases hrest : s.dropWhile isSpace with
    | nil =>
      rw [hrest, append_nil] at hsplit
      subst hsplit
      have hnone := tokens_of_separated (.nil hblank)
      rw [hnone]
      exact .nil hblank
    | cons c cs =>
      have hc : isSpace c = false := by
        have hhead := List.head?_dropWhile_not isSpace s
        rw [hrest] at hhead
        simpa using hhead
      rw [hrest] at hsplit
      have hsolid : ∀ d ∈ (c :: cs).takeWhile (!isSpace ·), isSpace d = false := fun d hd ↦ by
        simpa using mem_takeWhile_imp hd
      have hfirst : (c :: cs).takeWhile (!isSpace ·) ≠ [] := by
        rw [takeWhile_cons, if_pos (by simp [hc])]
        exact cons_ne_nil _ _
      have happart : ∀ d ∈ ((c :: cs).dropWhile (!isSpace ·)).head?, isSpace d = true := by
        intro d hd
        have hhead := List.head?_dropWhile_not (!isSpace ·) (c :: cs)
        rw [hd] at hhead
        simpa using hhead
      have hcut := takeWhile_append_dropWhile (p := (!isSpace ·)) (l := c :: cs)
      generalize (c :: cs).takeWhile (!isSpace ·) = t at hsolid hfirst hcut
      generalize (c :: cs).dropWhile (!isSpace ·) = rest at happart hcut
      have htail := ih rest.length (by
        have hpos := length_pos_iff.2 hfirst
        rw [← hlen, ← hsplit, ← hcut]
        simp only [length_append]
        omega) rest rfl
      have hsep := Separated.cons hblank hfirst hsolid happart htail
      rw [hcut, hsplit] at hsep
      rw [tokens_of_separated hsep]
      exact hsep

/-- **The tokens of a text are those that `split` finds.** -/
theorem separated_iff : Separated s ts ↔ tokens s = ts :=
  ⟨tokens_of_separated, fun h ↦ h ▸ separated_tokens s⟩

theorem tokens_append_blank (hw : ∀ c ∈ w, isSpace c = true) (s : List Char) :
    tokens (s ++ w) = tokens s := by
  cases w with
  | nil => rw [append_nil]
  | cons c w =>
    have hblank := tokens_of_separated
      (.nil fun d hd ↦ hw d (mem_cons_of_mem c hd) : Separated w [])
    rw [tokens] at hblank
    rw [tokens, splitOnP_append_cons _ _ (hw c mem_cons_self), filter_append, hblank,
      append_nil, tokens]

theorem tokens_stripChars (s : List Char) : tokens (stripChars isSpace s) = tokens s := by
  have hfront : tokens (s.dropWhile isSpace) = tokens s := by
    conv_rhs => rw [← takeWhile_append_dropWhile (p := isSpace) (l := s)]
    exact (tokens_blank (fun c hc ↦ mem_takeWhile_imp hc) _).symm
  rw [stripChars, ← hfront]
  generalize s.dropWhile isSpace = t
  have hback := congrArg List.reverse (takeWhile_append_dropWhile (p := isSpace) (l := t.reverse))
  rw [reverse_append, reverse_reverse] at hback
  conv_rhs => rw [← hback]
  exact (tokens_append_blank (fun c hc ↦ mem_takeWhile_imp (mem_reverse.1 hc)) _).symm

/-! ## Characters -/

section Characters

variable {f : Field} {digit digit' : Char → Bool} {s : List Char}

variable {part t : List Char} {a b k : ℕ} {c sep : Char} {parts ts : List (List Char)} {V : Set ℕ}
    {cron : CronExpression}

theorem mem_of_base (h : Base digit f t a b) (hc : c ∈ t) : digit c = true ∨ c ∈ ['*', '-'] := by
  rcases h with _ | ⟨numeral, -, -⟩ | ⟨first, last, -, -, -⟩
  · rw [mem_singleton.1 hc]
    exact .inr (by decide)
  · exact .inl (numeral.digits c hc)
  · rcases mem_append.1 hc with hc | hc
    · exact .inl (first.digits c hc)
    · rcases mem_cons.1 hc with rfl | hc
      · exact .inr (by decide)
      · exact .inl (last.digits c hc)

theorem mem_of_itemText (h : ItemText digit f part a b k) (hc : c ∈ part) :
    digit c = true ∨ c ∈ ['*', '-', '/'] := by
  have hmore : ∀ c ∈ ['*', '-'], c ∈ ['*', '-', '/'] := by simp
  rcases h with ⟨base⟩ | ⟨base, -, step, -⟩
  · exact (mem_of_base base hc).imp_right (hmore c)
  · rcases mem_append.1 hc with hc | hc
    · exact (mem_of_base base hc).imp_right (hmore c)
    · rcases mem_cons.1 hc with rfl | hc
      · exact .inr (by decide)
      · exact .inl (step.digits c hc)

theorem mem_of_mem_intercalate (h : c ∈ [sep].intercalate parts) :
    c = sep ∨ ∃ part ∈ parts, c ∈ part := by
  induction parts with
  | nil => exact absurd h not_mem_nil
  | cons part parts ih =>
    cases parts with
    | nil => exact .inr ⟨part, mem_cons_self, by simpa using h⟩
    | cons =>
      rw [intercalate_cons_cons, append_assoc, mem_append, mem_append, mem_singleton] at h
      rcases h with h | rfl | h
      · exact .inr ⟨part, mem_cons_self, h⟩
      · exact .inl rfl
      · exact (ih h).imp_right fun ⟨p, hp, hc⟩ ↦ ⟨p, mem_cons_of_mem _ hp, hc⟩

theorem mem_intercalate (hpart : part ∈ parts) (hc : c ∈ part) : c ∈ [sep].intercalate parts := by
  induction parts with
  | nil => exact absurd hpart not_mem_nil
  | cons _ parts ih =>
    cases parts with
    | nil => simpa [mem_singleton.1 hpart] using mem_singleton.1 hpart ▸ hc
    | cons =>
      rw [intercalate_cons_cons, append_assoc, mem_append, mem_append]
      rcases mem_cons.1 hpart with rfl | hpart
      · exact .inl hc
      · exact .inr (.inr (ih hpart))

theorem mem_of_fieldText {text : List Char} (h : FieldText digit f text V) (hc : c ∈ text) :
    digit c = true ∨ c ∈ ['*', '-', '/', ','] := by
  obtain ⟨items, -, rfl, hitems, -⟩ := h
  have hmore : ∀ c ∈ ['*', '-', '/'], c ∈ ['*', '-', '/', ','] := by simp
  rcases mem_of_mem_intercalate hc with rfl | ⟨part, hpart, hc⟩
  · exact .inr (by decide)
  · obtain ⟨i, hi, rfl⟩ := List.mem_map.1 hpart
    exact (mem_of_itemText (hitems i hi) hc).imp_right (hmore c)

theorem Numeral.mono {n : ℕ} (h : Numeral digit t n)
    (hdigit : ∀ c ∈ t, digit c = true → digit' c = true) : Numeral digit' t n :=
  ⟨h.nonempty, fun c hc ↦ hdigit c hc (h.digits c hc), h.value⟩

theorem Base.mono (h : Base digit f t a b) (hdigit : ∀ c ∈ t, digit c = true → digit' c = true) :
    Base digit' f t a b := by
  rcases h with _ | ⟨numeral, low_le, le_high⟩ | ⟨first, last, low_le, le, le_high⟩
  · exact .all
  · exact .single (numeral.mono hdigit) low_le le_high
  · refine .range (first.mono fun c hc ↦ ?_) (last.mono fun c hc ↦ ?_) low_le le le_high
    · exact hdigit c (mem_append_left _ hc)
    · exact hdigit c (mem_append_right _ (mem_cons_of_mem _ hc))

theorem ItemText.mono (h : ItemText digit f t a b k)
    (hdigit : ∀ c ∈ t, digit c = true → digit' c = true) : ItemText digit' f t a b k := by
  rcases h with ⟨base⟩ | ⟨base, many, step, pos⟩
  · exact .plain (base.mono hdigit)
  · refine .stepped (base.mono fun c hc ↦ ?_) many (step.mono fun c hc ↦ ?_) pos
    · exact hdigit c (mem_append_left _ hc)
    · exact hdigit c (mem_append_right _ (mem_cons_of_mem _ hc))

theorem FieldText.mono (h : FieldText digit f t V)
    (hdigit : ∀ c ∈ t, digit c = true → digit' c = true) : FieldText digit' f t V := by
  obtain ⟨items, hne, rfl, hitems, rfl⟩ := h
  refine ⟨items, hne, rfl, fun i hi ↦ (hitems i hi).mono fun c hc ↦ ?_, rfl⟩
  exact hdigit c (mem_intercalate (List.mem_map_of_mem hi) hc)

theorem mem_of_separated (h : Separated s ts) (ht : t ∈ ts) (hc : c ∈ t) :
    c ∈ s ∧ isSpace c = false := by
  induction h with
  | nil => exact absurd ht not_mem_nil
  | cons _ _ solid _ _ ih =>
    rcases mem_cons.1 ht with rfl | ht
    · exact ⟨mem_append_right _ (mem_append_left _ hc), solid c hc⟩
    · obtain ⟨hmem, hsolid⟩ := ih ht
      exact ⟨mem_append_right _ (mem_append_right _ hmem), hsolid⟩

theorem exists_mem_of_separated (h : Separated s ts) (hc : c ∈ s) :
    isSpace c = true ∨ ∃ t ∈ ts, c ∈ t := by
  induction h with
  | nil blank => exact .inl (blank c hc)
  | cons blank _ _ _ _ ih =>
    rcases mem_append.1 hc with hc | hc
    · exact .inl (blank c hc)
    rcases mem_append.1 hc with hc | hc
    · exact .inr ⟨_, mem_cons_self, hc⟩
    · exact (ih hc).imp_right fun ⟨t, ht, hc⟩ ↦ ⟨t, mem_cons_of_mem _ ht, hc⟩

theorem IsExpression.mono (h : IsExpression digit s cron)
    (hdigit : ∀ c ∈ s, digit c = true → digit' c = true) : IsExpression digit' s cron := by
  obtain ⟨minute, hour, dayOfMonth, month, dayOfWeek, hs, h₁, h₂, h₃, h₄, h₅, h₆⟩ := h
  have htoken : ∀ t ∈ [minute, hour, dayOfMonth, month, dayOfWeek],
      ∀ c ∈ t, digit c = true → digit' c = true :=
    fun t ht c hc ↦ hdigit c (mem_of_separated hs ht hc).1
  exact ⟨minute, hour, dayOfMonth, month, dayOfWeek, hs, h₁.mono (htoken _ (by simp)),
    h₂.mono (htoken _ (by simp)), h₃.mono (htoken _ (by simp)), h₄.mono (htoken _ (by simp)),
    h₅.mono (htoken _ (by simp)), h₆⟩

theorem mem_of_expression (h : IsExpression digit s cron) (hc : c ∈ s) :
    isSpace c = true ∨ digit c = true ∨ c ∈ ['*', '-', '/', ','] := by
  obtain ⟨minute, hour, dayOfMonth, month, dayOfWeek, hs, h₁, h₂, h₃, h₄, h₅, -⟩ := h
  refine (exists_mem_of_separated hs hc).imp_right ?_
  rintro ⟨t, ht, hc⟩
  simp only [mem_cons, not_mem_nil, or_false] at ht
  rcases ht with rfl | rfl | rfl | rfl | rfl
  · exact mem_of_fieldText h₁ hc
  · exact mem_of_fieldText h₂ hc
  · exact mem_of_fieldText h₃ hc
  · exact mem_of_fieldText h₄ hc
  · exact mem_of_fieldText h₅ hc

theorem isDigit_of_expression (h : IsExpression Char.isDigit s cron) (hc : c ∈ s)
    (hdecimal : isDecimal c = true) : c.isDigit = true := by
  rcases mem_of_expression h hc with hspace | hdigit | hmark
  · rw [isSpace_of_isDecimal hdecimal] at hspace
    cases hspace
  · exact hdigit
  · rw [(plain_of_mark c hmark).1] at hdecimal
    cases hdecimal

end Characters

end AgentColab.Schedules
