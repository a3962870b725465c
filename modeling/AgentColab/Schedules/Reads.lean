import AgentColab.Schedules.Grammar

/-!
# What the parser reads

Each part of the parser returns the only value that the grammar with the decimal digits of every
script gives its text, fails in `int` just when it comes to a number with too many digits, and
raises its own exception otherwise.
-/

namespace AgentColab.Schedules

open AgentColab List

/-! ## What a reader finds -/

/-- **What a reader does with a text.** It returns the only right value, fails in `int` just at a
number that is too long, and raises its own exception when nothing is right. -/
def Reads {α : Type} (x : Except ParseError α) (right : α → Prop) (long : Prop) : Prop :=
  match x with
  | .ok a => (∀ b, right b ↔ b = a) ∧ ¬long
  | .error .value => long
  | .error (.cron _ _) => (∀ b, ¬right b) ∧ ¬long

variable {α : Type} {x : Except ParseError α} {right : α → Prop} {long : Prop} {t u : List Char}
    {n : ℕ} {sep : Char}

theorem Reads.congr {right' : α → Prop} {long' : Prop} (h : Reads x right long)
    (hright : ∀ a, right' a ↔ right a) (hlong : long' ↔ long) : Reads x right' long' := by
  have hr : right' = right := funext fun a ↦ propext (hright a)
  rw [hr, propext hlong]
  exact h

theorem Reads.bind {β : Type} {g : α → Except ParseError β} (hx : Reads x right long)
    (right' : α → β → Prop) (long' : α → Prop)
    (hg : ∀ a, right a → Reads (g a) (right' a) (long' a)) :
    Reads (x >>= g) (fun b ↦ ∃ a, right a ∧ right' a b) (long ∨ ∃ a, right a ∧ long' a) := by
  match x with
  | .ok a =>
    obtain ⟨honly, hshort⟩ := hx
    refine (hg a ((honly a).2 rfl)).congr (fun b ↦ ?_) ?_
    · constructor
      · rintro ⟨a', ha', hb⟩
        rwa [← (honly a').1 ha']
      · exact fun hb ↦ ⟨a, (honly a).2 rfl, hb⟩
    · constructor
      · rintro (hlong | ⟨a', ha', hlong⟩)
        · exact absurd hlong hshort
        · rwa [← (honly a').1 ha']
      · exact fun hlong ↦ .inr ⟨a, (honly a).2 rfl, hlong⟩
  | .error .value => exact .inl hx
  | .error (.cron _ _) =>
    refine ⟨?_, ?_⟩
    · rintro b ⟨a, ha, -⟩
      exact hx.1 a ha
    · rintro (hlong | ⟨a, ha, -⟩)
      · exact hx.2 hlong
      · exact hx.1 a ha

theorem Reads.raise {code detail : String} (hright : ∀ a, ¬right a) (hlong : ¬long) :
    Reads (.error (.cron code detail)) right long := ⟨hright, hlong⟩

theorem Reads.ret {a : α} (hright : ∀ b, right b ↔ b = a) (hlong : ¬long) :
    Reads (.ok a) right long := ⟨hright, hlong⟩

/-! ## Numbers -/

/-- A number that `int` refuses. -/
def TooLong (t : List Char) : Prop := (∃ n, Numeral isDecimal t n) ∧ maxDigits < t.length

theorem numeral_unique {digit : Char → Bool} {m : ℕ} (hm : Numeral digit t m)
    (hn : Numeral digit t n) : m = n := hm.value.symm.trans hn.value

theorem not_mem_of_numeral (h : Numeral isDecimal t n) {c : Char} (hc : isDecimal c = false) :
    c ∉ t := fun hmem ↦ by
  rw [h.digits c hmem] at hc
  cases hc

theorem isNumber_iff (hsolid : ∀ c ∈ t, isSpace c = false) :
    isNumber t = true ↔ ∃ n, Numeral isDecimal t n := by
  have hbreak : t.getLast? ≠ some '\n' := fun h ↦ by
    have hspace := hsolid '\n' (mem_of_getLast? h)
    exact absurd hspace (by decide)
  rw [isNumber, if_neg hbreak, Bool.and_eq_true, Bool.not_eq_true', isEmpty_eq_false_iff,
    List.all_eq_true]
  exact ⟨fun h ↦ ⟨_, h.1, h.2, rfl⟩, fun ⟨n, h⟩ ↦ ⟨h.nonempty, h.digits⟩⟩

theorem reads_readInt (h : ∃ n, Numeral isDecimal t n) :
    Reads (readInt t) (Numeral isDecimal t) (TooLong t) := by
  obtain ⟨n, hn⟩ := h
  have hstrip : stripChars isSpace t = t :=
    stripChars_eq_self fun c hc ↦ isSpace_of_isDecimal (hn.digits c hc)
  rw [readInt, hstrip]
  split_ifs with hlong
  · exact ⟨⟨n, hn⟩, hlong⟩
  · refine .ret (fun m ↦ ?_) fun h ↦ hlong h.2
    exact ⟨fun hm ↦ hm.value.symm, fun hm ↦ hm ▸ ⟨hn.nonempty, hn.digits, rfl⟩⟩

/-! ## Items -/

theorem partition_append (h : sep ∉ t) : partition sep (t ++ sep :: u) = (t, u) := by
  have hall : ∀ c ∈ t, decide (c ≠ sep) = true := fun c hc ↦
    decide_eq_true fun heq ↦ h (heq ▸ hc)
  rw [partition, takeWhile_append_of_pos hall, dropWhile_append_of_pos hall]
  simp

theorem exists_partition (h : sep ∈ t) : ∃ u v, t = u ++ sep :: v ∧ sep ∉ u := by
  obtain ⟨u, v, rfl, hu⟩ := eq_append_cons_of_mem h
  exact ⟨u, v, rfl, hu⟩

def SplitsStep (part base : List Char) (k : ℕ) : Prop :=
  '/' ∉ part ∧ base = part ∧ k = 1 ∨
    ∃ u, part = base ++ '/' :: u ∧ '/' ∉ base ∧ Numeral isDecimal u k ∧ 1 ≤ k ∧
      (base = ['*'] ∨ '-' ∈ base)

def LongStep (part : List Char) : Prop := ∃ t u, part = t ++ '/' :: u ∧ '/' ∉ t ∧ TooLong u

/-- The start and the stop of an item, whatever the bounds. -/
def SplitsBase (f : Field) (base : List Char) (a b : ℕ) : Prop :=
  base = ['*'] ∧ a = f.low ∧ b = f.high ∨ Numeral isDecimal base a ∧ b = a ∨
    ∃ t u, base = t ++ '-' :: u ∧ Numeral isDecimal t a ∧ Numeral isDecimal u b ∧ a ≤ b

def LongBase (base : List Char) : Prop :=
  TooLong base ∨ ∃ t u, base = t ++ '-' :: u ∧ (∃ a, Numeral isDecimal t a) ∧
    (∃ b, Numeral isDecimal u b) ∧ (TooLong t ∨ TooLong u)

/-- The item comes to a number that is too long. -/
def LongItem (part : List Char) : Prop :=
  LongStep part ∨ ∃ base k, SplitsStep part base k ∧ LongBase base

theorem append_cons_inj {t' u' : List Char} (h : sep ∉ t) (h' : sep ∉ t')
    (heq : t ++ sep :: u = t' ++ sep :: u') : t = t' ∧ u = u' := by
  have hpart := congrArg (partition sep) heq
  rw [partition_append h, partition_append h'] at hpart
  exact Prod.mk.injEq .. ▸ hpart

theorem dash_not_mem (h : Numeral isDecimal t n) : '-' ∉ t := not_mem_of_numeral h (by decide)

section Items

variable {repr : List Char → String} {f : Field} {t u base : List Char} {a b k : ℕ}

theorem splitsStep_slash (ht : '/' ∉ t) : SplitsStep (t ++ '/' :: u) base k ↔
    base = t ∧ Numeral isDecimal u k ∧ 1 ≤ k ∧ (t = ['*'] ∨ '-' ∈ t) := by
  constructor
  · rintro (⟨hnone, -⟩ | ⟨v, heq, hbase, hk⟩)
    · exact absurd (mem_append_right t mem_cons_self) hnone
    · obtain ⟨rfl, rfl⟩ := append_cons_inj ht hbase heq
      exact ⟨rfl, hk⟩
  · rintro ⟨rfl, hk⟩
    exact .inr ⟨u, rfl, ht, hk⟩

theorem longStep_slash (ht : '/' ∉ t) : LongStep (t ++ '/' :: u) ↔ TooLong u := by
  constructor
  · rintro ⟨t', u', heq, ht', hu'⟩
    obtain ⟨rfl, rfl⟩ := append_cons_inj ht ht' heq
    exact hu'
  · exact fun h ↦ ⟨t, u, rfl, ht, h⟩

variable {part : List Char}

theorem reads_readStep (hsolid : ∀ c ∈ part, isSpace c = false) :
    Reads (readStep repr f part) (fun p ↦ SplitsStep part p.1 p.2) (LongStep part) := by
  rw [readStep]
  by_cases hslash : '/' ∈ part
  · obtain ⟨t, u, rfl, ht⟩ := exists_partition hslash
    rw [if_pos hslash, partition_append ht]
    dsimp only
    have hu : ∀ c ∈ u, isSpace c = false := fun c hc ↦
      hsolid c (mem_append_right _ (mem_cons_of_mem _ hc))
    by_cases hnumber : isNumber u = true
    · rw [if_neg (by simp [hnumber])]
      refine (Reads.bind (reads_readInt ((isNumber_iff hu).1 hnumber))
        (fun k p ↦ p = (t, k) ∧ 1 ≤ k ∧ (t = ['*'] ∨ '-' ∈ t)) (fun _ ↦ False) ?_).congr ?_ ?_
      · intro k _
        split_ifs with hpos hmany
        · exact .raise (fun p hp ↦ by omega) id
        · exact .raise (fun p hp ↦ by tauto) id
        · exact .ret (fun p ↦ ⟨And.left, fun hp ↦ ⟨hp, by omega, by tauto⟩⟩) id
      · rintro ⟨base, k⟩
        rw [splitsStep_slash ht]
        constructor
        · rintro ⟨rfl, hk, hpos⟩
          exact ⟨k, hk, rfl, hpos⟩
        · rintro ⟨k', hk, heq, hpos⟩
          cases heq
          exact ⟨rfl, hk, hpos⟩
      · rw [longStep_slash ht]
        simp
    · rw [if_pos (by simpa using hnumber)]
      refine .raise (fun p hp ↦ hnumber ?_) fun h ↦ hnumber ?_
      · exact (isNumber_iff hu).2 ⟨_, ((splitsStep_slash ht).1 hp).2.1⟩
      · exact (isNumber_iff hu).2 ((longStep_slash ht).1 h).1
  · rw [if_neg hslash]
    refine .ret ?_ ?_
    · rintro ⟨base, k⟩
      constructor
      · rintro (⟨-, rfl, rfl⟩ | ⟨u, rfl, -⟩)
        · rfl
        · exact absurd (mem_append_right _ mem_cons_self) hslash
      · intro heq
        cases heq
        exact .inl ⟨hslash, rfl, rfl⟩
    · rintro ⟨t, u, rfl, -⟩
      exact hslash (mem_append_right _ mem_cons_self)

theorem splitsBase_star : SplitsBase f ['*'] a b ↔ a = f.low ∧ b = f.high := by
  constructor
  · rintro (⟨-, h⟩ | ⟨h, -⟩ | ⟨t, u, heq, -⟩)
    · exact h
    · exact absurd mem_cons_self (not_mem_of_numeral h (by decide : isDecimal '*' = false))
    · exact absurd (heq ▸ mem_append_right t mem_cons_self : '-' ∈ ['*']) (by decide)
  · exact fun h ↦ .inl ⟨rfl, h⟩

theorem not_longBase_star : ¬LongBase ['*'] := by
  rintro (⟨⟨n, h⟩, -⟩ | ⟨t, u, heq, -⟩)
  · exact absurd mem_cons_self (not_mem_of_numeral h (by decide : isDecimal '*' = false))
  · exact absurd (heq ▸ mem_append_right t mem_cons_self : '-' ∈ ['*']) (by decide)

theorem splitsBase_dash (ht : '-' ∉ t) : SplitsBase f (t ++ '-' :: u) a b ↔
    Numeral isDecimal t a ∧ Numeral isDecimal u b ∧ a ≤ b := by
  constructor
  · rintro (⟨heq, -⟩ | ⟨h, -⟩ | ⟨t', u', heq, h⟩)
    · exact absurd (heq ▸ mem_append_right t mem_cons_self : '-' ∈ ['*']) (by decide)
    · exact absurd (mem_append_right t mem_cons_self) (dash_not_mem h)
    · obtain ⟨rfl, rfl⟩ := append_cons_inj ht (dash_not_mem h.1) heq
      exact h
  · exact fun h ↦ .inr (.inr ⟨t, u, rfl, h⟩)

theorem longBase_dash (ht : '-' ∉ t) : LongBase (t ++ '-' :: u) ↔
    (∃ a, Numeral isDecimal t a) ∧ (∃ b, Numeral isDecimal u b) ∧ (TooLong t ∨ TooLong u) := by
  constructor
  · rintro (⟨⟨n, h⟩, -⟩ | ⟨t', u', heq, h⟩)
    · exact absurd (mem_append_right t mem_cons_self) (dash_not_mem h)
    · obtain ⟨a, ha⟩ := h.1
      obtain ⟨rfl, rfl⟩ := append_cons_inj ht (dash_not_mem ha) heq
      exact h
  · exact fun h ↦ .inr ⟨t, u, rfl, h⟩

theorem splitsBase_single (hstar : base ≠ ['*']) (hdash : '-' ∉ base) :
    SplitsBase f base a b ↔ Numeral isDecimal base a ∧ b = a := by
  constructor
  · rintro (⟨h, -⟩ | h | ⟨t, u, rfl, -⟩)
    · exact absurd h hstar
    · exact h
    · exact absurd (mem_append_right t mem_cons_self) hdash
  · exact fun h ↦ .inr (.inl h)

theorem longBase_single (hdash : '-' ∉ base) : LongBase base ↔ TooLong base := by
  constructor
  · rintro (h | ⟨t, u, rfl, -⟩)
    · exact h
    · exact absurd (mem_append_right t mem_cons_self) hdash
  · exact .inl

theorem reads_range (ht : ∃ a, Numeral isDecimal t a) (hu : ∃ b, Numeral isDecimal u b) : Reads (do
      let start ← readInt t
      let stop ← readInt u
      if stop < start then
        .error (.cron "CRON_RANGE_INVALID" s!"{f.name}: {start}-{stop} reversed")
      else return (start, stop))
      (fun p ↦ Numeral isDecimal t p.1 ∧ Numeral isDecimal u p.2 ∧ p.1 ≤ p.2)
      (TooLong t ∨ TooLong u) := by
  refine (Reads.bind (reads_readInt ht) (fun a p ↦ ∃ b, Numeral isDecimal u b ∧ p = (a, b) ∧ a ≤ b)
    (fun _ ↦ TooLong u) fun a _ ↦ ?_).congr ?_ ?_
  · refine (Reads.bind (reads_readInt hu) (fun b p ↦ p = (a, b) ∧ a ≤ b) (fun _ ↦ False)
      fun b _ ↦ ?_).congr (fun p ↦ Iff.rfl) (by simp)
    split_ifs with hle
    · exact .raise (fun p hp ↦ by omega) id
    · exact .ret (fun p ↦ ⟨And.left, fun hp ↦ ⟨hp, not_lt.1 hle⟩⟩) id
  · rintro ⟨a, b⟩
    constructor
    · exact fun h ↦ ⟨a, h.1, b, h.2.1, rfl, h.2.2⟩
    · rintro ⟨a', ha, b', hb, heq, hle⟩
      cases heq
      exact ⟨ha, hb, hle⟩
  · exact or_congr_right ⟨fun h ↦ ⟨_, ht.choose_spec, h⟩, fun h ↦ h.choose_spec.2⟩

theorem reads_readBase (hsolid : ∀ c ∈ base, isSpace c = false) :
    Reads (readBase repr f part base) (fun p ↦ SplitsBase f base p.1 p.2) (LongBase base) := by
  rw [readBase]
  by_cases hstar : base = ['*']
  · subst hstar
    rw [if_pos rfl]
    refine .ret (fun p ↦ splitsBase_star.trans ?_) not_longBase_star
    rw [Prod.ext_iff]
  rw [if_neg hstar]
  by_cases hdash : '-' ∈ base
  · obtain ⟨t, u, rfl, ht⟩ := exists_partition hdash
    rw [if_pos hdash, partition_append ht]
    dsimp only
    have htnumber : isNumber t = true ↔ ∃ a, Numeral isDecimal t a :=
      isNumber_iff fun c hc ↦ hsolid c (mem_append_left _ hc)
    have hunumber : isNumber u = true ↔ ∃ b, Numeral isDecimal u b :=
      isNumber_iff fun c hc ↦ hsolid c (mem_append_right _ (mem_cons_of_mem _ hc))
    cases hnumbers : (isNumber t && isNumber u) with
    | true =>
      rw [Bool.and_eq_true, htnumber, hunumber] at hnumbers
      exact (reads_range hnumbers.1 hnumbers.2).congr (fun p ↦ splitsBase_dash ht)
        ((longBase_dash ht).trans (by tauto))
    | false =>
      refine .raise (fun p hp ↦ ?_) fun h ↦ ?_
      · obtain ⟨ha, hb, -⟩ := (splitsBase_dash ht).1 hp
        rw [htnumber.2 ⟨_, ha⟩, hunumber.2 ⟨_, hb⟩] at hnumbers
        cases hnumbers
      · obtain ⟨ha, hb, -⟩ := (longBase_dash ht).1 h
        rw [htnumber.2 ha, hunumber.2 hb] at hnumbers
        cases hnumbers
  · rw [if_neg hdash]
    by_cases hnumber : isNumber base = true
    · rw [if_neg (by simp [hnumber])]
      refine (Reads.bind (reads_readInt ((isNumber_iff hsolid).1 hnumber)) (fun a p ↦ p = (a, a))
        (fun _ ↦ False) fun a _ ↦ .ret (fun p ↦ Iff.rfl) id).congr ?_ ?_
      · rintro ⟨a, b⟩
        rw [splitsBase_single hstar hdash]
        constructor
        · rintro ⟨ha, hb⟩
          exact ⟨a, ha, Prod.ext rfl hb⟩
        · rintro ⟨a', ha, heq⟩
          cases heq
          exact ⟨ha, rfl⟩
      · rw [longBase_single hdash]
        simp
    · rw [if_pos (by simpa using hnumber)]
      refine .raise (fun p hp ↦ hnumber ?_) fun h ↦ hnumber ?_
      · exact (isNumber_iff hsolid).2 ⟨_, ((splitsBase_single hstar hdash).1 hp).1⟩
      · exact (isNumber_iff hsolid).2 ((longBase_single hdash).1 h).1

/-- The bounds of a field are in order, and there is no day of week 7. -/
structure Field.Sane (f : Field) : Prop where
  ordered : f.low ≤ f.high
  sunday : f.name = "day_of_week" → f.high < 7

namespace Field

theorem sane_minute : minute.Sane := ⟨by decide, by decide⟩

theorem sane_hour : hour.Sane := ⟨by decide, by decide⟩

theorem sane_dayOfMonth : dayOfMonth.Sane := ⟨by decide, by decide⟩

theorem sane_month : month.Sane := ⟨by decide, by decide⟩

theorem sane_dayOfWeek : dayOfWeek.Sane := ⟨by decide, by decide⟩

end Field

theorem checkBound_cases (hf : f.Sane) (v : ℕ) : checkBound f v = .ok () ∨
    (∃ code detail, checkBound f v = .error (.cron code detail)) ∧ ¬(f.low ≤ v ∧ v ≤ f.high) := by
  rw [checkBound]
  split_ifs with hseven hout
  · have hhigh := hf.sunday hseven.1
    exact .inr ⟨⟨_, _, rfl⟩, by omega⟩
  · exact .inr ⟨⟨_, _, rfl⟩, by omega⟩
  · exact .inl rfl

theorem reads_checkItem (hf : f.Sane) (hle : a ≤ b) :
    Reads (checkItem f a b k) (fun i ↦ i.start = a ∧ i.stop = b ∧ i.step = k) False := by
  rw [checkItem]
  split
  · next e hstart =>
    rcases checkBound_cases hf a with hok | ⟨⟨code, detail, herr⟩, hout⟩
    · rw [hok] at hstart
      cases hstart
    · rw [herr] at hstart
      cases hstart
      refine .raise (fun i hi ↦ hout ?_) id
      have hlow := i.low_le
      have hhigh := i.le_high
      omega
  · next hstart =>
    split
    · next e hstop =>
      rcases checkBound_cases hf b with hok | ⟨⟨code, detail, herr⟩, hout⟩
      · rw [hok] at hstop
        cases hstop
      · rw [herr] at hstop
        cases hstop
        refine .raise (fun i hi ↦ hout ?_) id
        have hlow := i.low_le
        have hhigh := i.le_high
        omega
    · refine .ret (fun i ↦ ?_) id
      rw [Item.ext_iff]

theorem base_iff : Base isDecimal f base a b ↔ SplitsBase f base a b ∧ f.low ≤ a ∧ b ≤ f.high := by
  constructor
  · rintro (_ | ⟨numeral, low_le, le_high⟩ | ⟨first, last, low_le, le, le_high⟩)
    · exact ⟨.inl ⟨rfl, rfl, rfl⟩, le_rfl, le_rfl⟩
    · exact ⟨.inr (.inl ⟨numeral, rfl⟩), low_le, le_high⟩
    · exact ⟨.inr (.inr ⟨_, _, rfl, first, last, le⟩), low_le, le_high⟩
  · rintro ⟨⟨rfl, rfl, rfl⟩ | ⟨numeral, rfl⟩ | ⟨t, u, rfl, first, last, le⟩, low_le, le_high⟩
    · exact .all
    · exact .single numeral low_le le_high
    · exact .range first last low_le le le_high

theorem slash_not_mem (h : SplitsBase f base a b) : '/' ∉ base := by
  rcases h with ⟨rfl, -⟩ | ⟨h, -⟩ | ⟨t, u, rfl, ht, hu, -⟩
  · decide
  · exact not_mem_of_numeral h (by decide)
  · rw [mem_append, mem_cons]
    rintro (h | h | h)
    · exact not_mem_of_numeral ht (by decide) h
    · exact absurd h (by decide)
    · exact not_mem_of_numeral hu (by decide) h

theorem itemText_iff : ItemText isDecimal f part a b k ↔
    ∃ base, SplitsStep part base k ∧ SplitsBase f base a b ∧ f.low ≤ a ∧ b ≤ f.high := by
  constructor
  · rintro (⟨hbase⟩ | ⟨hbase, many, step, pos⟩)
    · have hb := base_iff.1 hbase
      exact ⟨_, .inl ⟨slash_not_mem hb.1, rfl, rfl⟩, hb⟩
    · have hb := base_iff.1 hbase
      exact ⟨_, .inr ⟨_, rfl, slash_not_mem hb.1, step, pos, many⟩, hb⟩
  · rintro ⟨base, ⟨-, rfl, rfl⟩ | ⟨u, rfl, -, step, pos, many⟩, hb⟩
    · exact .plain (base_iff.2 hb)
    · exact .stepped (base_iff.2 hb) many step pos

theorem le_of_splitsBase (hf : f.Sane) (h : SplitsBase f base a b) : a ≤ b := by
  rcases h with ⟨-, rfl, rfl⟩ | ⟨-, rfl⟩ | ⟨t, u, -, -, -, h⟩
  · exact hf.ordered
  · exact le_rfl
  · exact h

theorem solid_of_splitsStep (hsolid : ∀ c ∈ part, isSpace c = false) (h : SplitsStep part base k) :
    ∀ c ∈ base, isSpace c = false := by
  rcases h with ⟨-, rfl, -⟩ | ⟨u, rfl, -⟩
  · exact hsolid
  · exact fun c hc ↦ hsolid c (mem_append_left _ hc)

theorem not_splitsStep_nil : SplitsStep [] base k → base = [] := by
  rintro (⟨-, rfl, -⟩ | ⟨u, heq, -⟩)
  · rfl
  · exact absurd heq (by simp)

theorem not_itemText_nil : ¬ItemText isDecimal f [] a b k := by
  intro h
  obtain ⟨base, hstep, hbase, -⟩ := itemText_iff.1 h
  obtain rfl := not_splitsStep_nil hstep
  rcases hbase with ⟨h, -⟩ | ⟨h, -⟩ | ⟨t, u, h, -⟩
  · cases h
  · exact h.nonempty rfl
  · exact absurd h (by simp)

theorem not_longItem_nil : ¬LongItem [] := by
  rintro (⟨t, u, h, -⟩ | ⟨base, k, hstep, hlong⟩)
  · exact absurd h (by simp)
  · obtain rfl := not_splitsStep_nil hstep
    rcases hlong with ⟨⟨n, h⟩, -⟩ | ⟨t, u, h, -⟩
    · exact h.nonempty rfl
    · exact absurd h (by simp)

theorem reads_parseItem (repr : List Char → String) (text : List Char) (hf : f.Sane)
    (hsolid : ∀ c ∈ part, isSpace c = false) : Reads (parseItem repr f text part)
      (fun i ↦ ItemText isDecimal f part i.start i.stop i.step) (LongItem part) := by
  rw [parseItem]
  by_cases hempty : part = []
  · subst hempty
    rw [if_pos rfl]
    exact .raise (fun i ↦ not_itemText_nil) not_longItem_nil
  rw [if_neg hempty]
  refine (Reads.bind (reads_readStep hsolid)
    (fun p i ↦ SplitsBase f p.1 i.start i.stop ∧ i.step = p.2) (fun p ↦ LongBase p.1)
    ?_).congr ?_ ?_
  · rintro ⟨base, k⟩ hstep
    refine (Reads.bind (reads_readBase (solid_of_splitsStep hsolid hstep))
      (fun p i ↦ i.start = p.1 ∧ i.stop = p.2 ∧ i.step = k) (fun _ ↦ False) ?_).congr ?_ ?_
    · rintro ⟨a, b⟩ hbase
      exact reads_checkItem hf (le_of_splitsBase hf hbase)
    · intro i
      constructor
      · rintro ⟨hbase, hk⟩
        exact ⟨(i.start, i.stop), hbase, rfl, rfl, hk⟩
      · rintro ⟨⟨a, b⟩, hbase, ha, hb, hk⟩
        dsimp only at ha hb hbase
        rw [ha, hb]
        exact ⟨hbase, hk⟩
    · simp
  · intro i
    rw [itemText_iff]
    constructor
    · rintro ⟨base, hstep, hbase, -⟩
      exact ⟨(base, i.step), hstep, hbase, rfl⟩
    · rintro ⟨⟨base, k⟩, hstep, hbase, hk⟩
      dsimp only at hstep hbase hk
      subst hk
      exact ⟨base, hstep, hbase, i.low_le, i.le_high⟩
  · rw [LongItem, Prod.exists]

end Items

/-! ## Fields -/

section Fields

variable {repr : List Char → String} {f : Field}

/-- The item that a text denotes. -/
def Denotes (f : Field) (part : List Char) (i : Item f) : Prop :=
  ItemText isDecimal f part i.start i.stop i.step

/-- An item comes to a number that is too long, and those before it are right. -/
def LongParts (f : Field) : List (List Char) → Prop
  | [] => False
  | part :: parts => LongItem part ∨ (∃ i, Denotes f part i) ∧ LongParts f parts

variable {parts : List (List Char)} {i : Item f} {v : ℕ} {part text : List Char} {V : Set ℕ}
    {c : Char}

theorem reads_items (repr : List Char → String) (text : List Char) (hf : f.Sane)
    (hsolid : ∀ part ∈ parts, ∀ c ∈ part, isSpace c = false) (vs : Values f) :
    Reads (parts.foldlM (fun values part ↦ do return values.update (← parseItem repr f text part))
      vs) (fun vs' ↦ ∃ items, List.Forall₂ (Denotes f) parts items ∧
        vs' = items.foldl Values.update vs) (LongParts f parts) := by
  induction parts generalizing vs with
  | nil =>
    refine .ret (fun vs' ↦ ?_) id
    constructor
    · rintro ⟨items, hitems, rfl⟩
      rw [forall₂_nil_left_iff.1 hitems]
      rfl
    · rintro rfl
      exact ⟨[], .nil, rfl⟩
  | cons part parts ih =>
    rw [foldlM_cons]
    have hpart := reads_parseItem repr text hf (hsolid part mem_cons_self)
    have hread : Reads (do return vs.update (← parseItem repr f text part))
        (fun vs' ↦ ∃ i, Denotes f part i ∧ vs' = vs.update i) (LongItem part) :=
      (hpart.bind (fun i vs' ↦ vs' = vs.update i) (fun _ ↦ False)
        fun i _ ↦ .ret (fun vs' ↦ Iff.rfl) id).congr (fun vs' ↦ Iff.rfl) (by simp)
    refine (hread.bind (fun vs₁ vs' ↦ ∃ items, List.Forall₂ (Denotes f) parts items ∧
      vs' = items.foldl Values.update vs₁) (fun _ ↦ LongParts f parts)
      fun vs₁ _ ↦ ih (fun p hp ↦ hsolid p (mem_cons_of_mem _ hp)) vs₁).congr ?_ ?_
    · intro vs'
      constructor
      · rintro ⟨items, hitems, rfl⟩
        obtain ⟨i, rest, hi, hrest, rfl⟩ := forall₂_cons_left_iff.1 hitems
        exact ⟨vs.update i, ⟨i, hi, rfl⟩, rest, hrest, rfl⟩
      · rintro ⟨vs₁, ⟨i, hi, rfl⟩, rest, hrest, rfl⟩
        exact ⟨i :: rest, .cons hi hrest, rfl⟩
    · rw [LongParts]
      refine or_congr_right ⟨?_, ?_⟩
      · rintro ⟨⟨i, hi⟩, hlong⟩
        exact ⟨_, ⟨i, hi, rfl⟩, hlong⟩
      · rintro ⟨_, ⟨i, hi, -⟩, hlong⟩
        exact ⟨⟨i, hi⟩, hlong⟩

theorem mem_range_iff (hpos : 1 ≤ i.step) :
    v ∈ i.range ↔ v ∈ progression i.start i.stop i.step := by
  rw [Item.range, progression, Set.mem_ofPred_eq]
  split_ifs with hle
  · rw [mem_range']
    refine exists_congr fun n ↦ ?_
    rw [Nat.lt_succ_iff, Nat.le_div_iff_mul_le hpos, Nat.mul_comm, and_comm]
    refine and_congr_right fun hv ↦ ?_
    omega
  · constructor
    · exact fun h ↦ absurd h not_mem_nil
    · rintro ⟨n, rfl, hstop⟩
      omega

theorem step_pos (h : Denotes f part i) : 1 ≤ i.step := by
  rcases i with ⟨start, stop, step, hlow, hhigh⟩
  rcases h with ⟨-⟩ | ⟨-, -, -, pos⟩
  · exact le_rfl
  · exact pos

theorem mem_foldl_update {items : List (Item f)} {vs : Values f} :
    v ∈ (items.foldl Values.update vs).values ↔ v ∈ vs.values ∨ ∃ i ∈ items, v ∈ i.range := by
  induction items generalizing vs with
  | nil => simp
  | cons i _ ih =>
    rw [foldl_cons, ih, Values.update, Finset.mem_union, List.mem_toFinset]
    simp only [mem_cons, exists_eq_or_imp, or_assoc]

theorem exists_items {items : List (List Char × ℕ × ℕ × ℕ)}
    (h : ∀ i ∈ items, ItemText isDecimal f i.1 i.2.1 i.2.2.1 i.2.2.2) :
    ∃ js : List (Item f), List.Forall₂ (Denotes f) (items.map (·.1)) js ∧
      ∀ v, (∃ j ∈ js, v ∈ j.range) ↔ ∃ i ∈ items, v ∈ progression i.2.1 i.2.2.1 i.2.2.2 := by
  induction items with
  | nil => exact ⟨[], .nil, by simp⟩
  | cons i _ ih =>
    obtain ⟨js, hjs, hvalues⟩ := ih fun j hj ↦ h j (mem_cons_of_mem _ hj)
    have hi := h i mem_cons_self
    obtain ⟨-, -, -, hlow, hhigh⟩ := itemText_iff.1 hi
    have hdenotes : Denotes f i.1 ⟨i.2.1, i.2.2.1, i.2.2.2, hlow, hhigh⟩ := hi
    refine ⟨_, .cons hdenotes hjs, fun v ↦ ?_⟩
    simp only [mem_cons, exists_eq_or_imp, hvalues v, mem_range_iff (step_pos hdenotes)]

theorem exists_texts {js : List (Item f)} (h : List.Forall₂ (Denotes f) parts js) :
    ∃ items : List (List Char × ℕ × ℕ × ℕ), items.map (·.1) = parts ∧
      (∀ i ∈ items, ItemText isDecimal f i.1 i.2.1 i.2.2.1 i.2.2.2) ∧
      ∀ v, (∃ j ∈ js, v ∈ j.range) ↔ ∃ i ∈ items, v ∈ progression i.2.1 i.2.2.1 i.2.2.2 := by
  induction h with
  | nil => exact ⟨[], rfl, by simp, by simp⟩
  | @cons part j _ _ hdenotes _ ih =>
    obtain ⟨items, rfl, hitems, hvalues⟩ := ih
    refine ⟨(part, j.start, j.stop, j.step) :: items, rfl, ?_, fun v ↦ ?_⟩
    · rintro i hi
      rcases mem_cons.1 hi with rfl | hi
      · exact hdenotes
      · exact hitems i hi
    · simp only [mem_cons, exists_eq_or_imp, hvalues v, mem_range_iff (step_pos hdenotes)]

theorem fieldText_iff : FieldText isDecimal f text V ↔
    ∃ items : List (Item f), List.Forall₂ (Denotes f) (text.splitOn ',') items ∧
      V = {v | ∃ i ∈ items, v ∈ i.range} := by
  constructor
  · rintro ⟨items, hne, rfl, hitems, rfl⟩
    have hcomma : ∀ part ∈ items.map (·.1), ',' ∉ part := by
      rintro part hpart hmem
      obtain ⟨i, hi, rfl⟩ := List.mem_map.1 hpart
      rcases mem_of_itemText (hitems i hi) hmem with h | h
      · exact absurd h (by decide)
      · exact absurd h (by decide)
    rw [splitOn_intercalate ',' hcomma (by simpa using hne)]
    obtain ⟨js, hjs, hvalues⟩ := exists_items hitems
    exact ⟨js, hjs, Set.ext fun v ↦ (hvalues v).symm⟩
  · rintro ⟨js, hjs, rfl⟩
    obtain ⟨items, hparts, hitems, hvalues⟩ := exists_texts hjs
    refine ⟨items, ?_, ?_, hitems, Set.ext hvalues⟩
    · rintro rfl
      exact splitOn_ne_nil ',' text hparts.symm
    · rw [hparts, intercalate_splitOn]

/-- The items of the field come to a number that is too long. -/
def LongField (f : Field) (text : List Char) : Prop :=
  (∀ c ∈ text, c ∉ extended ∧ c.isAlpha = false) ∧ LongParts f (text.splitOn ',')

theorem reads_star : (∀ V, FieldText isDecimal f ['*'] V ↔ V = {v | f.low ≤ v ∧ v ≤ f.high}) ∧
      ¬LongField f ['*'] := by
  have hsplit : (['*'].splitOn ',') = [['*']] := by decide
  have hitem : ∀ i : Item f, Denotes f ['*'] i ↔ i = ⟨f.low, f.high, 1, le_rfl, le_rfl⟩ := by
    intro i
    rw [Denotes, itemText_iff, Item.ext_iff]
    constructor
    · rintro ⟨base, ⟨-, rfl, hk⟩ | ⟨u, heq, -⟩, hbase, -⟩
      · obtain ⟨ha, hb⟩ := splitsBase_star.1 hbase
        exact ⟨ha, hb, hk⟩
      · exact absurd (heq ▸ mem_append_right base mem_cons_self : '/' ∈ ['*']) (by decide)
    · rintro ⟨ha, hb, hk⟩
      refine ⟨['*'], .inl ⟨by decide, rfl, hk⟩, ?_, i.low_le, i.le_high⟩
      exact splitsBase_star.2 ⟨ha, hb⟩
  constructor
  · intro V
    rw [fieldText_iff, hsplit]
    have hrange : {v | ∃ i ∈ [(⟨f.low, f.high, 1, le_rfl, le_rfl⟩ : Item f)], v ∈ i.range} =
        {v | f.low ≤ v ∧ v ≤ f.high} := by
      ext v
      simp only [mem_singleton, exists_eq_left, Set.mem_ofPred_eq]
      rw [mem_range_iff (i := ⟨f.low, f.high, 1, le_rfl, le_rfl⟩) (le_refl 1)]
      constructor
      · rintro ⟨n, hv, hle⟩
        dsimp only at hv hle
        omega
      · rintro ⟨hlow, hhigh⟩
        refine ⟨v - f.low, ?_, hhigh⟩
        dsimp only
        omega
    constructor
    · rintro ⟨items, hitems, rfl⟩
      obtain ⟨i, rest, hi, hrest, rfl⟩ := forall₂_cons_left_iff.1 hitems
      rw [forall₂_nil_left_iff.1 hrest, (hitem i).1 hi, hrange]
    · rintro rfl
      exact ⟨_, .cons ((hitem _).2 rfl) .nil, hrange.symm⟩
  · rintro ⟨-, hlong⟩
    rw [hsplit] at hlong
    rcases hlong with (⟨t, u, heq, -⟩ | ⟨base, k, ⟨-, rfl, -⟩ | ⟨u, heq, -⟩, hlong⟩) | ⟨-, hlong⟩
    · exact absurd (heq ▸ mem_append_right t mem_cons_self : '/' ∈ ['*']) (by decide)
    · exact not_longBase_star hlong
    · exact absurd (heq ▸ mem_append_right base mem_cons_self : '/' ∈ ['*']) (by decide)
    · exact hlong

theorem plain_of_isDecimal (h : isDecimal c = true) : c ∉ extended ∧ c.isAlpha = false := by
  refine ⟨fun hc ↦ ?_, ?_⟩
  · rw [(plain_of_extended c hc).1] at h
    cases h
  · by_contra halpha
    have hletter := toNat_of_isAlpha (Bool.not_eq_false _ ▸ halpha)
    have hdigit := toNat_of_isDecimal h
    omega

theorem plain_of_isSpace (h : isSpace c = true) : c ∉ extended ∧ c.isAlpha = false := by
  refine ⟨fun hc ↦ ?_, ?_⟩
  · rw [(plain_of_extended c hc).2] at h
    cases h
  · by_contra halpha
    have hletter := toNat_of_isAlpha (Bool.not_eq_false _ ▸ halpha)
    rw [isSpace, decide_eq_true_iff] at h
    simp only [mem_cons, not_mem_nil, or_false] at h
    omega

theorem plain_of_fieldText (h : FieldText isDecimal f text V) :
    ∀ c ∈ text, c ∉ extended ∧ c.isAlpha = false := by
  intro c hc
  rcases mem_of_fieldText h hc with hdigit | hmark
  · exact plain_of_isDecimal hdigit
  · exact (plain_of_mark c hmark).2

theorem mem_of_mem_splitOn (hpart : part ∈ text.splitOn sep) (hc : c ∈ part) : c ∈ text := by
  have hmem : c ∈ [sep].intercalate (text.splitOn sep) := mem_intercalate hpart hc
  rwa [intercalate_splitOn] at hmem

theorem not_fieldText_nil : ¬FieldText isDecimal f [] V := by
  rw [fieldText_iff, splitOn_nil]
  rintro ⟨items, hitems, -⟩
  obtain ⟨i, _, hi, -⟩ := forall₂_cons_left_iff.1 hitems
  exact not_itemText_nil hi

theorem not_longField_nil : ¬LongField f [] := by
  rw [LongField, splitOn_nil]
  rintro ⟨-, hlong | ⟨⟨i, hi⟩, -⟩⟩
  · exact not_longItem_nil hlong
  · exact not_itemText_nil hi

theorem reads_parseField (hf : f.Sane) (hsolid : ∀ c ∈ text, isSpace c = false) :
    Reads (parseField repr f text) (fun p ↦ FieldText isDecimal f text {v | v ∈ p.1.values} ∧
      (p.2 = true ↔ text ≠ ['*'])) (LongField f text) := by
  have hparts : ∀ part ∈ text.splitOn ',', ∀ c ∈ part, isSpace c = false :=
    fun part hpart c hc ↦ hsolid c (mem_of_mem_splitOn hpart hc)
  have hread := reads_items repr text hf hparts Values.empty
  have hvalues : ∀ vs : Values f, FieldText isDecimal f text {v | v ∈ vs.values} ↔
      ∃ items, List.Forall₂ (Denotes f) (text.splitOn ',') items ∧
        vs = items.foldl Values.update Values.empty := by
    intro vs
    rw [fieldText_iff]
    refine exists_congr fun items ↦ and_congr_right fun _ ↦ ?_
    rw [Values.ext_iff, Finset.ext_iff, Set.ext_iff]
    refine forall_congr' fun v ↦ ?_
    rw [mem_foldl_update]
    simp [Values.empty]
  rw [parseField]
  by_cases hempty : text = []
  · subst hempty
    rw [if_pos rfl]
    exact .raise (fun p hp ↦ not_fieldText_nil hp.1) not_longField_nil
  rw [if_neg hempty]
  by_cases hextended : text.any (· ∈ extended) = true
  · rw [if_pos hextended]
    obtain ⟨c, hc, hmark⟩ := List.any_eq_true.1 hextended
    refine .raise (fun p hp ↦ ?_) fun hlong ↦ ?_
    · exact (plain_of_fieldText hp.1 c hc).1 (of_decide_eq_true hmark)
    · exact (hlong.1 c hc).1 (of_decide_eq_true hmark)
  rw [if_neg hextended]
  by_cases halpha : text.any Char.isAlpha = true
  · rw [if_pos halpha]
    obtain ⟨c, hc, hletter⟩ := List.any_eq_true.1 halpha
    refine .raise (fun p hp ↦ ?_) fun hlong ↦ ?_
    · exact absurd hletter (by simp [(plain_of_fieldText hp.1 c hc).2])
    · exact absurd hletter (by simp [(hlong.1 c hc).2])
  rw [if_neg halpha]
  have hplain : ∀ c ∈ text, c ∉ extended ∧ c.isAlpha = false := by
    intro c hc
    refine ⟨fun hmark ↦ hextended ?_, ?_⟩
    · exact List.any_eq_true.2 ⟨c, hc, decide_eq_true hmark⟩
    · by_contra hletter
      exact halpha (List.any_eq_true.2 ⟨c, hc, by simpa using hletter⟩)
  by_cases hstar : text = ['*']
  · subst hstar
    rw [if_pos rfl]
    refine .ret (fun p ↦ ?_) reads_star.2
    rw [reads_star.1, Prod.ext_iff, Values.ext_iff, Finset.ext_iff, Set.ext_iff]
    simp [Values.all]
  · rw [if_neg hstar]
    refine (hread.bind (fun vs p ↦ p = (vs, true)) (fun _ ↦ False) fun vs _ ↦
      .ret (fun p ↦ Iff.rfl) id).congr ?_ ?_
    · rintro ⟨vs, r⟩
      rw [hvalues]
      constructor
      · rintro ⟨hitems, hr⟩
        exact ⟨vs, hitems, Prod.ext rfl (hr.2 hstar)⟩
      · rintro ⟨vs', hitems, heq⟩
        cases heq
        exact ⟨hitems, fun _ ↦ hstar, fun _ ↦ rfl⟩
    · rw [LongField]
      simp only [and_false, exists_false, or_false]
      exact and_iff_right hplain

end Fields

end AgentColab.Schedules
