import AgentColab.Schedules.Reads

/-!
# What the parser accepts

`parse` does what is documented just when it comes to no number that is too long, unless the text is
refused anyway and is of no kind that the documentation names, and the text has no digits but the
ASCII ones if it is an expression at all.
-/

namespace AgentColab.Schedules

open AgentColab List

variable {repr : List Char → String} {f : Field} {s : List Char}

/-! ## What is refused -/

/-- The text, without the white space around it, starts with `@`. -/
def IsAlias (s : List Char) : Prop := (stripChars isSpace s).head? = some '@'

/-- **What the documentation names among the texts that are refused**: names and the extended
characters, aliases, six fields, and a day of week 7. -/
inductive Refused (s : List Char) : Prop where
  | character {c : Char} (mem : c ∈ s) (refused : c.isAlpha = true ∨ c ∈ extended)
  | shorthand (h : IsAlias s)
  | seconds {ts : List (List Char)} (separated : Separated s ts) (six : ts.length = 6)
  | sunday {minute hour dayOfMonth month dayOfWeek part : List Char} {high a b k : ℕ}
      (separated : Separated s [minute, hour, dayOfMonth, month, dayOfWeek])
      (mem : part ∈ dayOfWeek.splitOn ',')
      (item : ItemText Char.isDigit ⟨"day_of_week", 0, high⟩ part a b k) (written : '*' ∉ part)
      (seven : a = 7 ∨ b = 7)

variable {base part t : List Char} {cron : CronExpression} {a b k : ℕ} {V : Set ℕ}

theorem mem_of_mem_stripChars {p : Char → Bool} {c : Char} (h : c ∈ stripChars p t) : c ∈ t := by
  rw [stripChars] at h
  have hback := (dropWhile_sublist p).subset (mem_reverse.1 h)
  exact (dropWhile_sublist p).subset (mem_reverse.1 hback)

theorem not_isAlias (h : IsExpression isDecimal s cron) : ¬IsAlias s := by
  intro halias
  have hmem : '@' ∈ s := mem_of_mem_stripChars (mem_of_mem_head? halias)
  rcases mem_of_expression h hmem with hspace | hdigit | hmark
  · exact absurd hspace (by decide)
  · exact absurd hdigit (by decide)
  · exact absurd hmark (by decide)

theorem splitsStep_unique {base' : List Char} {k' : ℕ} (h : SplitsStep part base k)
    (h' : SplitsStep part base' k') : base = base' ∧ k = k' := by
  rcases h with ⟨hnone, rfl, rfl⟩ | ⟨u, rfl, hbase, hk, -⟩
  · rcases h' with ⟨-, rfl, rfl⟩ | ⟨u, rfl, -⟩
    · exact ⟨rfl, rfl⟩
    · exact absurd (mem_append_right _ mem_cons_self) hnone
  · obtain ⟨rfl, hk', -⟩ := (splitsStep_slash hbase).1 h'
    exact ⟨rfl, numeral_unique hk hk'⟩

theorem splitsBase_unique {f' : Field} {a' b' : ℕ} (hstar : base ≠ ['*'])
    (h : SplitsBase f base a b) (h' : SplitsBase f' base a' b') : a = a' ∧ b = b' := by
  by_cases hdash : '-' ∈ base
  · obtain ⟨t, u, rfl, ht⟩ := exists_partition hdash
    obtain ⟨ha, hb, -⟩ := (splitsBase_dash ht).1 h
    obtain ⟨ha', hb', -⟩ := (splitsBase_dash ht).1 h'
    exact ⟨numeral_unique ha ha', numeral_unique hb hb'⟩
  · obtain ⟨ha, rfl⟩ := (splitsBase_single hstar hdash).1 h
    obtain ⟨ha', rfl⟩ := (splitsBase_single hstar hdash).1 h'
    exact ⟨numeral_unique ha ha', numeral_unique ha ha'⟩

theorem not_sunday {text : List Char} (h : FieldText isDecimal .dayOfWeek text V)
    (hmem : part ∈ text.splitOn ',') (hpart : '*' ∉ part) {high : ℕ}
    (hitem : ItemText Char.isDigit ⟨"day_of_week", 0, high⟩ part a b k) : a ≠ 7 ∧ b ≠ 7 := by
  obtain ⟨items, hitems, -⟩ := fieldText_iff.1 h
  obtain ⟨i, hi⟩ : ∃ i, Denotes .dayOfWeek part i := by
    obtain ⟨n, hn, rfl⟩ := getElem_of_mem hmem
    exact ⟨_, hitems.get hn (hitems.length_eq ▸ hn)⟩
  obtain ⟨base, hstep, hbase, -⟩ := itemText_iff.1 hi
  obtain ⟨base', hstep', hbase', -⟩ :=
    itemText_iff.1 (hitem.mono fun c _ hc ↦ isDecimal_of_isDigit hc)
  obtain ⟨rfl, -⟩ := splitsStep_unique hstep hstep'
  have hstar : base ≠ ['*'] := by
    rintro rfl
    rcases hstep with ⟨-, rfl, -⟩ | ⟨u, rfl, -⟩
    · exact hpart mem_cons_self
    · exact hpart (mem_append_left _ mem_cons_self)
  obtain ⟨rfl, rfl⟩ := splitsBase_unique hstar hbase hbase'
  have hle := le_of_splitsBase Field.sane_dayOfWeek hbase
  have hhigh : i.stop ≤ 6 := i.le_high
  omega

/-- **An expression is no text that is refused.** -/
theorem not_refused (h : IsExpression isDecimal s cron) : ¬Refused s := by
  have hplain : ∀ c ∈ s, c ∉ extended ∧ c.isAlpha = false := by
    intro c hc
    rcases mem_of_expression h hc with hspace | hdigit | hmark
    · exact plain_of_isSpace hspace
    · exact plain_of_isDecimal hdigit
    · exact (plain_of_mark c hmark).2
  rintro (⟨mem, hletter | hextended⟩ | halias | ⟨separated, six⟩ |
    ⟨separated, mem, item, written, seven⟩)
  · rw [(hplain _ mem).2] at hletter
    cases hletter
  · exact (hplain _ mem).1 hextended
  · exact not_isAlias h halias
  · obtain ⟨minute, hour, dayOfMonth, month, dayOfWeek, hs, -⟩ := h
    rw [← separated_iff.1 separated, separated_iff.1 hs] at six
    cases six
  · obtain ⟨minute, hour, dayOfMonth, month, dayOfWeek, hs, -, -, -, -, hdays, -⟩ := h
    rw [separated_iff, separated_iff.1 hs] at separated
    cases separated
    exact seven.elim (not_sunday hdays mem written item).1 (not_sunday hdays mem written item).2

/-! ## Expressions -/

def IsField (f : Field) (t : List Char) (p : Values f × Bool) : Prop :=
  FieldText isDecimal f t {v | v ∈ p.1.values} ∧ (p.2 = true ↔ t ≠ ['*'])

/-- A field comes to a number that is too long, and those before it are right. -/
def LongIn : List (Field × List Char) → Prop
  | [] => False
  | (f, t) :: rest =>
    LongField f t ∨ (∃ vs : Values f, FieldText isDecimal f t {v | v ∈ vs.values}) ∧ LongIn rest

/-- **The parser comes to a number that is too long.** -/
def Overlong (s : List Char) : Prop :=
  ¬IsAlias s ∧ ∃ minute hour dayOfMonth month dayOfWeek : List Char,
    Separated s [minute, hour, dayOfMonth, month, dayOfWeek] ∧
    LongIn [(.minute, minute), (.hour, hour), (.dayOfMonth, dayOfMonth), (.month, month),
      (.dayOfWeek, dayOfWeek)]

theorem exists_isField : (∃ p, IsField f t p) ↔
    ∃ vs : Values f, FieldText isDecimal f t {v | v ∈ vs.values} := by
  constructor
  · rintro ⟨p, hp, -⟩
    exact ⟨p.1, hp⟩
  · rintro ⟨vs, hvs⟩
    exact ⟨(vs, decide (t ≠ ['*'])), hvs, decide_eq_true_iff⟩

theorem Reads.field (hf : f.Sane) (hsolid : ∀ c ∈ t, isSpace c = false) {β : Type}
    {g : Values f × Bool → Except ParseError β} {right : Values f × Bool → β → Prop}
    {rest : List (Field × List Char)}
    (hg : ∀ p, IsField f t p → Reads (g p) (right p) (LongIn rest)) :
    Reads (parseField repr f t >>= g) (fun b ↦ ∃ p, IsField f t p ∧ right p b)
      (LongIn ((f, t) :: rest)) := by
  refine ((reads_parseField hf hsolid).bind right (fun _ ↦ LongIn rest) hg).congr
    (fun _ ↦ Iff.rfl) ?_
  rw [LongIn, ← exists_isField, exists_and_right]
  rfl

/-- The values that a field denotes are values of the field. -/
theorem exists_fieldText (h : FieldText isDecimal f t V) :
    ∃ vs : Values f, FieldText isDecimal f t {v | v ∈ vs.values} := by
  obtain ⟨items, hitems, rfl⟩ := fieldText_iff.1 h
  refine ⟨items.foldl Values.update Values.empty, fieldText_iff.2 ⟨items, hitems, ?_⟩⟩
  refine Set.ext fun v ↦ ?_
  rw [Set.mem_ofPred_eq, Set.mem_ofPred_eq, mem_foldl_update]
  simp [Values.empty]

def Answers (x : Except ParseError CronExpression) (s : List Char) : Prop :=
  match x with
  | .ok cron => IsExpression isDecimal s cron ∧ ¬Overlong s
  | .error .value => Overlong s
  | .error (.cron _ _) => (∀ cron, ¬IsExpression isDecimal s cron) ∧ ¬Overlong s

theorem answers_of_reads {x : Except ParseError CronExpression} (halias : ¬IsAlias s)
    {minute hour dayOfMonth month dayOfWeek : List Char}
    (hs : Separated s [minute, hour, dayOfMonth, month, dayOfWeek])
    (h : Reads x (fun cron ↦ ∃ p₁, IsField .minute minute p₁ ∧ ∃ p₂, IsField .hour hour p₂ ∧
      ∃ p₃, IsField .dayOfMonth dayOfMonth p₃ ∧ ∃ p₄, IsField .month month p₄ ∧
      ∃ p₅, IsField .dayOfWeek dayOfWeek p₅ ∧
        cron = ofFields [minute, hour, dayOfMonth, month, dayOfWeek] p₁.1 p₂.1 p₃ p₄.1 p₅)
      (LongIn [(.minute, minute), (.hour, hour), (.dayOfMonth, dayOfMonth), (.month, month),
        (.dayOfWeek, dayOfWeek)])) : Answers x s := by
  have hlong : Overlong s ↔ LongIn [(.minute, minute), (.hour, hour), (.dayOfMonth, dayOfMonth),
      (.month, month), (.dayOfWeek, dayOfWeek)] := by
    constructor
    · rintro ⟨-, _, _, _, _, _, hs', hlong⟩
      rw [separated_iff, separated_iff.1 hs] at hs'
      cases hs'
      exact hlong
    · exact fun hlong ↦ ⟨halias, _, _, _, _, _, hs, hlong⟩
  match x with
  | .ok cron =>
    obtain ⟨hright, hshort⟩ := h
    obtain ⟨p₁, h₁, p₂, h₂, p₃, h₃, p₄, h₄, p₅, h₅, rfl⟩ := (hright cron).2 rfl
    refine ⟨⟨minute, hour, dayOfMonth, month, dayOfWeek, hs, ?_⟩, hlong.not.2 hshort⟩
    simp only [ofFields, Values.mem_toList]
    exact ⟨h₁.1, h₂.1, h₃.1, h₄.1, h₅.1, h₃.2, h₅.2⟩
  | .error .value => exact hlong.2 h
  | .error (.cron _ _) =>
    refine ⟨?_, hlong.not.2 h.2⟩
    rintro cron ⟨_, _, _, _, _, hs', h₁, h₂, h₃, h₄, h₅, -⟩
    rw [separated_iff, separated_iff.1 hs] at hs'
    cases hs'
    obtain ⟨p₁, h₁⟩ := exists_isField.2 (exists_fieldText h₁)
    obtain ⟨p₂, h₂⟩ := exists_isField.2 (exists_fieldText h₂)
    obtain ⟨p₃, h₃⟩ := exists_isField.2 (exists_fieldText h₃)
    obtain ⟨p₄, h₄⟩ := exists_isField.2 (exists_fieldText h₄)
    obtain ⟨p₅, h₅⟩ := exists_isField.2 (exists_fieldText h₅)
    exact h.1 _ ⟨p₁, h₁, p₂, h₂, p₃, h₃, p₄, h₄, p₅, h₅, rfl⟩

/-- **What is read of an expression.** -/
theorem answers_parse (repr : List Char → String) (s : String) :
    Answers (parse repr s) s.toList := by
  rw [parse]
  by_cases halias : (stripChars isSpace s.toList).head? = some '@'
  · rw [if_pos halias]
    exact ⟨fun cron h ↦ not_isAlias h halias, fun h ↦ h.1 halias⟩
  rw [if_neg halias, tokens_stripChars]
  split
  case h_1 minute hour dayOfMonth month dayOfWeek htokens =>
    have hs := separated_iff.2 htokens
    have hsolid : ∀ t ∈ [minute, hour, dayOfMonth, month, dayOfWeek], ∀ c ∈ t, isSpace c = false :=
      fun t ht c hc ↦ (mem_of_separated hs ht hc).2
    refine answers_of_reads halias hs ?_
    refine Reads.field Field.sane_minute (hsolid _ (by simp)) fun p₁ _ ↦ ?_
    refine Reads.field Field.sane_hour (hsolid _ (by simp)) fun p₂ _ ↦ ?_
    refine Reads.field Field.sane_dayOfMonth (hsolid _ (by simp)) fun p₃ _ ↦ ?_
    refine Reads.field Field.sane_month (hsolid _ (by simp)) fun p₄ _ ↦ ?_
    refine Reads.field Field.sane_dayOfWeek (hsolid _ (by simp)) fun p₅ _ ↦ ?_
    exact .ret (fun _ ↦ Iff.rfl) id
  case h_2 hother =>
    have hcount : ∀ minute hour dayOfMonth month dayOfWeek,
        ¬Separated s.toList [minute, hour, dayOfMonth, month, dayOfWeek] :=
      fun _ _ _ _ _ hs ↦ hother _ _ _ _ _ (separated_iff.1 hs)
    have hnone : (∀ cron, ¬IsExpression isDecimal s.toList cron) ∧ ¬Overlong s.toList :=
      ⟨fun cron ⟨_, _, _, _, _, hs, _⟩ ↦ hcount _ _ _ _ _ hs,
        fun ⟨_, _, _, _, _, _, hs, _⟩ ↦ hcount _ _ _ _ _ hs⟩
    split_ifs
    · exact hnone
    · exact hnone

/-! ## The documented grammar -/

/-- **The parser does what is documented.** -/
structure Correct (repr : List Char → String) (s : String) : Prop where
  accepts : (∃ cron, parse repr s = .ok cron) ↔ ∃ cron, IsExpression Char.isDigit s.toList cron
  denotes : ∀ cron, parse repr s = .ok cron → IsExpression Char.isDigit s.toList cron
  refuses : Refused s.toList → ∃ code detail, parse repr s = .error (.cron code detail)

/-- **When the parser does what is documented.** -/
theorem parse_correct_iff (repr : List Char → String) (s : String) : Correct repr s ↔
    (Overlong s.toList → (∀ cron, ¬IsExpression Char.isDigit s.toList cron) ∧ ¬Refused s.toList) ∧
    (¬Overlong s.toList → (∃ cron, IsExpression isDecimal s.toList cron) →
      ∀ c ∈ s.toList, isDecimal c = true → c.isDigit = true) := by
  have hmono : ∀ cron, IsExpression Char.isDigit s.toList cron →
      IsExpression isDecimal s.toList cron :=
    fun cron h ↦ h.mono fun c _ hc ↦ isDecimal_of_isDigit hc
  have hanswer := answers_parse repr s
  cases hparse : parse repr s with
  | ok cron =>
    rw [hparse] at hanswer
    obtain ⟨hexpression, hshort⟩ := hanswer
    constructor
    · refine fun h ↦ ⟨fun hlong ↦ absurd hlong hshort, fun _ _ c hc hdecimal ↦ ?_⟩
      exact isDigit_of_expression (h.denotes cron hparse) hc hdecimal
    · rintro ⟨-, hascii⟩
      have hdigits : IsExpression Char.isDigit s.toList cron :=
        hexpression.mono fun c hc ↦ hascii hshort ⟨cron, hexpression⟩ c hc
      refine ⟨iff_of_true ⟨cron, hparse⟩ ⟨cron, hdigits⟩, ?_, ?_⟩
      · intro cron' h
        cases hparse.symm.trans h
        exact hdigits
      · exact fun h ↦ absurd h (not_refused hexpression)
  | error e =>
    rw [hparse] at hanswer
    cases e with
    | value =>
      constructor
      · refine fun h ↦ ⟨fun _ ↦ ⟨fun cron hcron ↦ ?_, fun hrefused ↦ ?_⟩,
          fun hshort ↦ absurd hanswer hshort⟩
        · obtain ⟨cron', hok⟩ := h.accepts.2 ⟨cron, hcron⟩
          cases hparse.symm.trans hok
        · obtain ⟨code, detail, herror⟩ := h.refuses hrefused
          cases hparse.symm.trans herror
      · rintro ⟨hlong, -⟩
        refine ⟨iff_of_false ?_ ?_, ?_, fun h ↦ absurd h (hlong hanswer).2⟩
        · rintro ⟨cron, hok⟩
          cases hparse.symm.trans hok
        · exact fun ⟨cron, h⟩ ↦ (hlong hanswer).1 cron h
        · intro cron hok
          cases hparse.symm.trans hok
    | cron code detail =>
      obtain ⟨hnone, hshort⟩ := hanswer
      refine iff_of_true ⟨iff_of_false ?_ ?_, ?_, fun _ ↦ ⟨code, detail, hparse⟩⟩
        ⟨fun hlong ↦ absurd hlong hshort, fun _ ⟨cron, h⟩ ↦ absurd h (hnone cron)⟩
      · rintro ⟨cron, hok⟩
        cases hparse.symm.trans hok
      · exact fun ⟨cron, h⟩ ↦ hnone cron (hmono cron h)
      · intro cron hok
        cases hparse.symm.trans hok

/-- `٣ * * * *` is read as `3 * * * *`. -/
theorem parse_other_digits : ¬∀ repr s, Correct repr s := by
  intro h
  have haccepts : (parse (fun _ ↦ "") "٣ * * * *").isOk = true := by decide
  have hdigit : '٣'.isDigit = true := by
    cases hparse : parse (fun _ ↦ "") "٣ * * * *" with
    | ok cron =>
      exact isDigit_of_expression ((h _ _).denotes cron hparse) (by simp) (by decide)
    | error =>
      rw [hparse] at haccepts
      cases haccepts
  exact absurd hdigit (by decide)

end AgentColab.Schedules
