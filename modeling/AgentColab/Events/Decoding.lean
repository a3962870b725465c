import AgentColab.Events.Canonical

/-!
# Decoding JSON

`Canon` is what the text of a value shows: the members of a dict in the order of the text, and a
number as its text, which for a float from `2 ^ 53` on can be that of an `int` of another value.

The scanner is that of `json.loads`, up to the meaning of numbers: a string ends at its quote, a
list and a dict at their bracket, and a number is the longest run of the characters of numbers. It
reads back what `Json.text` writes, so the canonical text determines the value up to `Json.canon`.
-/

namespace AgentColab

open List Option
open Nat (digitChar toDigits)

/-- A value up to the type of numbers, which are kept as their text. -/
inductive Canon where
  | null
  | bool (b : Bool)
  | num (text : List Char)
  | str (s : String)
  | arr (items : List Canon)
  | obj (members : List (String × Canon))

mutual

def Json.canon : Json → Canon
  | .null => .null
  | .bool b => .bool b
  | .int n => .num (intText n)
  | .float f => .num (es6Number f)
  | .str s => .str s
  | .arr xs => .arr (canonItems xs)
  | .obj ms => .obj (sortKeys (canonMembers ms))

def canonItems : List Json → List Canon
  | [] => []
  | x :: xs => x.canon :: canonItems xs

def canonMembers : List (String × Json) → List (String × Canon)
  | [] => []
  | (k, v) :: ms => (k, v.canon) :: canonMembers ms

end

theorem canonItems_eq_map (xs : List Json) : canonItems xs = xs.map Json.canon := by
  induction xs with
  | nil => rfl
  | cons x _ ih => rw [canonItems, ih, map_cons]

theorem canonMembers_eq_map (ms : List (String × Json)) :
    canonMembers ms = ms.map fun m ↦ (m.1, m.2.canon) := by
  induction ms with
  | nil => rfl
  | cons m _ ih => rw [canonMembers, ih, map_cons]

theorem itemTexts_eq_map (xs : List Json) : itemTexts xs = xs.map Json.text := by
  induction xs with
  | nil => rfl
  | cons x _ ih => rw [itemTexts, ih, map_cons]

theorem sortKeys_map {α β : Type} (f : α → β) (ms : List (String × α)) :
    sortKeys (ms.map fun m ↦ (m.1, f m.2)) = (sortKeys ms).map fun m ↦ (m.1, f m.2) := by
  exact (map_insertionSort (fun a b : String × α ↦ utf16 a.1 ≤ utf16 b.1)
    (fun a b : String × β ↦ utf16 a.1 ≤ utf16 b.1) (fun m ↦ (m.1, f m.2)) ms
    fun _ _ _ _ ↦ Iff.rfl).symm

/-! ## The scanner -/

def isJsonSpace (c : Char) : Bool := c ∈ [' ', '\t', '\n', '\r']

def skipSpace (l : List Char) : List Char := l.dropWhile isJsonSpace

def hexDigit? (c : Char) : Option ℕ :=
  if c.isDigit then some (c.toNat - '0'.toNat)
  else if 'a'.toNat ≤ c.toNat ∧ c.toNat ≤ 'f'.toNat then some (c.toNat - 'a'.toNat + 10)
  else if 'A'.toNat ≤ c.toNat ∧ c.toNat ≤ 'F'.toNat then some (c.toNat - 'A'.toNat + 10)
  else none

def readHex4 : List Char → Option (ℕ × List Char)
  | a :: b :: c :: d :: l =>
    match hexDigit? a, hexDigit? b, hexDigit? c, hexDigit? d with
    | some a, some b, some c, some d => some (4096 * a + 256 * b + 16 * c + d, l)
    | _, _, _, _ => none
  | _ => none

/-- The second half of a surrogate pair, after the first. -/
def readLowSurrogate (high : ℕ) : List Char → Option (Char × List Char)
  | '\\' :: 'u' :: l =>
    match readHex4 l with
    | some (low, l) =>
      if 0xDC00 ≤ low ∧ low ≤ 0xDFFF then
        some (Char.ofNat (0x10000 + (high - 0xD800) * 1024 + (low - 0xDC00)), l)
      else none
    | none => none
  | _ => none

/-- The character after `\u`. -/
def readUnicode (l : List Char) : Option (Char × List Char) :=
  match readHex4 l with
  | none => none
  | some (n, l) =>
    if 0xD800 ≤ n ∧ n ≤ 0xDBFF then readLowSurrogate n l
    else if 0xDC00 ≤ n ∧ n ≤ 0xDFFF then none
    else some (Char.ofNat n, l)

def readEscape : List Char → Option (Char × List Char)
  | '"' :: l => some ('"', l)
  | '\\' :: l => some ('\\', l)
  | '/' :: l => some ('/', l)
  | 'b' :: l => some ('\x08', l)
  | 'f' :: l => some ('\x0c', l)
  | 'n' :: l => some ('\n', l)
  | 'r' :: l => some ('\r', l)
  | 't' :: l => some ('\t', l)
  | 'u' :: l => readUnicode l
  | _ => none

/-- One character of a string; control characters are refused. -/
def scanChar : List Char → Option (Char × List Char)
  | [] => none
  | c :: l => if c = '\\' then readEscape l else if c.toNat < 0x20 then none else some (c, l)

def scanString : ℕ → List Char → Option (List Char × List Char)
  | 0, _ => none
  | _ + 1, '"' :: l => some ([], l)
  | fuel + 1, l =>
    match scanChar l with
    | none => none
    | some (c, l) =>
      match scanString fuel l with
      | none => none
      | some (cs, l) => some (c :: cs, l)

def scanKey : List Char → Option (String × List Char)
  | '"' :: l =>
    match scanString (l.length + 1) l with
    | none => none
    | some (k, l) =>
      match skipSpace l with
      | ':' :: l => some (String.ofList k, skipSpace l)
      | _ => none
  | _ => none

def jsonWords : List (List Char × Canon) := [(['n', 'u', 'l', 'l'], .null),
  (['t', 'r', 'u', 'e'], .bool true), (['f', 'a', 'l', 's', 'e'], .bool false),
  (['N', 'a', 'N'], .num ['N', 'a', 'N']),
  (['I', 'n', 'f', 'i', 'n', 'i', 't', 'y'], .num ['I', 'n', 'f', 'i', 'n', 'i', 't', 'y']),
  (['-', 'I', 'n', 'f', 'i', 'n', 'i', 't', 'y'],
    .num ['-', 'I', 'n', 'f', 'i', 'n', 'i', 't', 'y'])]

def isNumeric (c : Char) : Bool := c.isDigit || c ∈ ['-', '+', '.', 'e']

/-- The run of the characters of numbers. What the pattern of a number leaves of it is an error in
any case. -/
def numberRun (l : List Char) : List Char := l.takeWhile fun c ↦ isNumeric c || c == 'E'

def scanPlain (l : List Char) : Option (Canon × List Char) :=
  match jsonWords.find? fun w ↦ w.1.isPrefixOf l with
  | some w => some (w.2, l.drop w.1.length)
  | none => if numberRun l = [] then none else some (.num (numberRun l), l.drop (numberRun l).length)

mutual

/-- `scan_once`: a value at the beginning of the text. -/
def scanValue : ℕ → List Char → Option (Canon × List Char)
  | 0, _ => none
  | _ + 1, [] => none
  | fuel + 1, c :: l =>
    if c = '"' then (scanString (l.length + 1) l).map fun r ↦ (.str (String.ofList r.1), r.2)
    else if c = '{' then scanObject fuel (skipSpace l)
    else if c = '[' then scanArray fuel (skipSpace l)
    else scanPlain (c :: l)

def scanArray : ℕ → List Char → Option (Canon × List Char)
  | 0, _ => none
  | _ + 1, ']' :: l => some (.arr [], l)
  | fuel + 1, l => (scanItems fuel l).map fun r ↦ (.arr r.1, r.2)

/-- The elements of a list and its closing bracket. -/
def scanItems : ℕ → List Char → Option (List Canon × List Char)
  | 0, _ => none
  | fuel + 1, l =>
    match scanValue fuel l with
    | none => none
    | some (v, l) =>
      match skipSpace l with
      | ']' :: l => some ([v], l)
      | ',' :: l => (scanItems fuel (skipSpace l)).map fun r ↦ (v :: r.1, r.2)
      | _ => none

def scanObject : ℕ → List Char → Option (Canon × List Char)
  | 0, _ => none
  | _ + 1, '}' :: l => some (.obj [], l)
  | fuel + 1, l => (scanMembers fuel l).map fun r ↦ (.obj r.1, r.2)

def scanMembers : ℕ → List Char → Option (List (String × Canon) × List Char)
  | 0, _ => none
  | fuel + 1, l =>
    match scanKey l with
    | none => none
    | some (k, l) =>
      match scanValue fuel l with
      | none => none
      | some (v, l) =>
        match skipSpace l with
        | '}' :: l => some ([(k, v)], l)
        | ',' :: l => (scanMembers fuel (skipSpace l)).map fun r ↦ ((k, v) :: r.1, r.2)
        | _ => none

end

def scanText (text : List Char) : Option Canon :=
  match scanValue (2 * text.length + 1) (skipSpace text) with
  | some (v, l) => if skipSpace l = [] then some v else none
  | none => none

/-! ## Reading strings back -/

theorem hexDigit?_digitChar : ∀ n < 16, hexDigit? (digitChar n) = some n := by decide

theorem readUnicode_hex4 {n : ℕ} (hn : n < 32) (l : List Char) :
    readUnicode (hex4 n ++ l) = some (Char.ofNat n, l) := by
  have hhex : readHex4 (hex4 n ++ l) = some (n, l) := by
    simp only [hex4, map_cons, map_nil, cons_append, nil_append, readHex4]
    rw [hexDigit?_digitChar _ (by omega), hexDigit?_digitChar _ (by omega),
      hexDigit?_digitChar _ (by omega), hexDigit?_digitChar _ (by omega)]
    simp only [some.injEq, Prod.mk.injEq, and_true]
    omega
  rw [readUnicode, hhex]
  dsimp only
  rw [if_neg (by omega), if_neg (by omega)]

theorem scanChar_escapeChar (c : Char) (l : List Char) :
    scanChar (escapeChar c ++ l) = some (c, l) := by
  rw [escapeChar]
  split_ifs with h₁ h₂ h₃ h₄ h₅ h₆ h₇ h₈
  · rw [h₁]; rfl
  · rw [h₂]; rfl
  · rw [h₃]; rfl
  · rw [h₄]; rfl
  · rw [h₅]; rfl
  · rw [h₆]; rfl
  · rw [h₇]; rfl
  · change readUnicode (hex4 c.toNat ++ l) = _
    rw [readUnicode_hex4 h₈, Char.ofNat_toNat]
  · rw [cons_append, nil_append, scanChar, if_neg h₇, if_neg h₈]

theorem escapeChar_ne_quote (c : Char) (l l' : List Char) : escapeChar c ++ l ≠ '"' :: l' := by
  rw [escapeChar]
  split_ifs with h₁ h₂ h₃ h₄ h₅ h₆
  all_goals
    intro h
    simp only [cons_append, nil_append, List.cons.injEq] at h
    first
      | exact absurd h.1 (by decide)
      | exact h₆ h.1

theorem scanString_flatMap {s l : List Char} {n : ℕ} (hn : s.length < n) :
    scanString n (s.flatMap escapeChar ++ '"' :: l) = some (s, l) := by
  induction s generalizing n with
  | nil =>
    obtain ⟨n, rfl⟩ := Nat.exists_eq_succ_of_ne_zero (Nat.ne_zero_of_lt hn)
    rfl
  | cons c s ih =>
    obtain ⟨n, rfl⟩ := Nat.exists_eq_succ_of_ne_zero (Nat.ne_zero_of_lt hn)
    rw [flatMap_cons, append_assoc, scanString, scanChar_escapeChar]
    · dsimp only
      rw [ih (by simpa using hn)]
    · exact escapeChar_ne_quote c _

theorem length_le_flatMap_escapeChar (s : List Char) :
    s.length ≤ (s.flatMap escapeChar).length := by
  have hpos : ∀ c, 1 ≤ (escapeChar c).length := by
    intro c
    rw [escapeChar]
    split_ifs <;> simp
  induction s with
  | nil => exact le_rfl
  | cons c =>
    rw [flatMap_cons, length_append, length_cons]
    have := hpos c
    omega

theorem scanString_escapeString (s : String) (l : List Char) : ∃ r, escapeString s ++ l = '"' :: r ∧
      scanString (r.length + 1) r = some (s.toList, l) := by
  refine ⟨s.toList.flatMap escapeChar ++ '"' :: l, ?_, scanString_flatMap ?_⟩
  · simp [escapeString]
  · have := length_le_flatMap_escapeChar s.toList
    rw [length_append]
    omega

/-! ## Numbers -/

theorem isNumeric_of_isDigit {c : Char} (h : c.isDigit = true) : isNumeric c = true := by
  rw [isNumeric, h, Bool.true_or]

theorem isNumeric_toDigits {n : ℕ} {c : Char} (h : c ∈ toDigits 10 n) : isNumeric c = true :=
  isNumeric_of_isDigit (Nat.isDigit_of_mem_toDigits (by decide) (by decide) h)

theorem isNumeric_intText {n : ℤ} {c : Char} (h : c ∈ intText n) : isNumeric c = true := by
  rw [intText] at h
  split_ifs at h
  · rcases mem_cons.1 h with rfl | h
    · rfl
    · exact isNumeric_toDigits h
  · exact isNumeric_toDigits h

theorem isNumeric_es6Number {f : PyFloat} {c : Char} (h : c ∈ es6Number f) :
    isNumeric c = true := by
  cases f with
  | num d =>
    have hdigit : ∀ x ∈ d.digits.map digitChar, isNumeric x = true := by
      intro x hx
      obtain ⟨n, hn, rfl⟩ := List.mem_map.1 hx
      refine isNumeric_of_isDigit ?_
      rw [Nat.isDigit_digitChar]
      exact decide_eq_true (d.digits_lt n hn)
    have hsign : ∀ x ∈ if d.neg then ['-'] else [], isNumeric x = true := by
      intro x hx
      split at hx
      · rw [mem_singleton.1 hx]
        rfl
      · exact absurd hx not_mem_nil
    have hzero : ∀ n, ∀ x ∈ List.replicate n '0', isNumeric x = true := by
      intro n x hx
      rw [(mem_replicate.1 hx).2]
      rfl
    have hexp : ∀ e : ℤ, ∀ x ∈ ['e', if 0 ≤ e then '+' else '-'] ++ toDigits 10 e.natAbs,
        isNumeric x = true := by
      intro e x hx
      rcases mem_append.1 hx with hx | hx
      · split at hx
        · exact (by simp [isNumeric] : ∀ x ∈ ['e', '+'], isNumeric x = true) x hx
        · exact (by simp [isNumeric] : ∀ x ∈ ['e', '-'], isNumeric x = true) x hx
      · exact isNumeric_toDigits hx
    have hpoint : ∀ x ∈ ['.'], isNumeric x = true := by simp [isNumeric]
    have hlead : ∀ x ∈ ['0', '.'], isNumeric x = true := by simp [isNumeric, Char.isDigit]
    have happend : ∀ {l l' : List Char}, (∀ x ∈ l, isNumeric x = true) →
        (∀ x ∈ l', isNumeric x = true) → ∀ x ∈ l ++ l', isNumeric x = true := by
      intro l l' hl hl' x hx
      rcases mem_append.1 hx with hx | hx
      · exact hl x hx
      · exact hl' x hx
    have htake : ∀ n, ∀ x ∈ (d.digits.map digitChar).take n, isNumeric x = true :=
      fun n x hx ↦ hdigit x (mem_of_mem_take hx)
    have hdrop : ∀ n, ∀ x ∈ (d.digits.map digitChar).drop n, isNumeric x = true :=
      fun n x hx ↦ hdigit x (mem_of_mem_drop hx)
    rw [es6Number] at h
    dsimp only at h
    split at h
    · exact happend (happend hsign hdigit) (hzero _) c h
    · split at h
      · exact happend (happend (happend hsign (htake _)) hpoint) (hdrop _) c h
      · split at h
        · exact happend (happend (happend hsign hlead) (hzero _)) hdigit c h
        · split at h
          · exact happend (happend hsign hdigit) (hexp _) c h
          · exact happend (happend (happend (happend hsign (htake _)) hpoint) (hdrop _)) (hexp _) c h
  | nan | inf | zero => rw [mem_singleton.1 h]; rfl

theorem intText_ne_nil (n : ℤ) : intText n ≠ [] := by
  rw [intText]
  split_ifs
  · exact cons_ne_nil _ _
  · exact Nat.toDigits_ne_nil

theorem toDigits_inj {m n : ℕ} (h : toDigits 10 m = toDigits 10 n) : m = n := by
  rw [← @Nat.ofDigitChars_ten_toDigits m, h, Nat.ofDigitChars_ten_toDigits]

theorem intText_inj {m n : ℤ} (h : intText m = intText n) : m = n := by
  have hminus : ∀ k, '-' ∉ toDigits 10 k := fun k hk ↦
    absurd (Nat.isDigit_of_mem_toDigits (by decide) (by decide) hk) (by decide)
  rw [intText, intText] at h
  split_ifs at h with hm hn hn
  · have := toDigits_inj (List.cons.inj h).2
    omega
  · exact absurd (h ▸ mem_cons_self) (hminus n.natAbs)
  · exact absurd (h ▸ mem_cons_self) (hminus m.natAbs)
  · have := toDigits_inj h
    omega

theorem append_inj_of_all {p : Char → Bool} {t t' l l' : List Char} (ht : ∀ c ∈ t, p c = true)
    (ht' : ∀ c ∈ t', p c = true) (hl : ∀ c ∈ l.head?, p c = false)
    (hl' : ∀ c ∈ l'.head?, p c = false) (h : t ++ l = t' ++ l') : t = t' ∧ l = l' := by
  have htake : ∀ {s r : List Char}, (∀ c ∈ s, p c = true) → (∀ c ∈ r.head?, p c = false) →
      (s ++ r).takeWhile p = s := by
    intro s r hs hr
    rw [takeWhile_append_of_pos hs]
    cases r with
    | nil => simp
    | cons c => rw [takeWhile_cons_of_neg (by simp [hr c rfl]), append_nil]
  have heq := congrArg (List.takeWhile p) h
  rw [htake ht hl, htake ht' hl'] at heq
  exact ⟨heq, append_cancel_left (heq ▸ h)⟩

theorem es6Number_ne_nil (f : PyFloat) : es6Number f ≠ [] := by
  cases f with
  | num d =>
    have hdigits : d.digits.map digitChar ≠ [] := by
      rw [Ne, map_eq_nil_iff]
      exact length_pos_iff.1 d.length_pos
    rw [es6Number]
    dsimp only
    split
    · simp [hdigits]
    · split
      · simp
      · split
        · simp
        · split <;> simp
  | nan | inf | zero => exact cons_ne_nil _ _

/-- What follows a value: the end of the text, a comma or a closing bracket. -/
def Stops (l : List Char) : Prop := ∀ c ∈ l.head?, c = ',' ∨ c = ']' ∨ c = '}'

theorem stops_nil : Stops [] := by
  intro c hc
  simp at hc

theorem stops_cons {c : Char} {l : List Char} (h : c = ',' ∨ c = ']' ∨ c = '}') :
    Stops (c :: l) := by
  intro x hx
  obtain rfl : c = x := by simpa using hx
  exact h

theorem not_isNumeric_of_stops {l : List Char} (hl : Stops l) :
    ∀ c ∈ l.head?, (isNumeric c || c == 'E') = false := by
  intro c hc
  obtain rfl | rfl | rfl := hl c hc <;> decide

theorem find?_jsonWords_number {t l : List Char} (ht : ∀ c ∈ t, isNumeric c = true) (hne : t ≠ [])
    (hl : Stops l) : jsonWords.find? (fun w ↦ w.1.isPrefixOf (t ++ l)) = none := by
  have hword : ∀ c : Char, isNumeric c = true →
      c ≠ 'n' ∧ c ≠ 't' ∧ c ≠ 'f' ∧ c ≠ 'N' ∧ c ≠ 'I' := by
    intro c hc
    refine ⟨?_, ?_, ?_, ?_, ?_⟩ <;> (rintro rfl; revert hc; decide)
  obtain ⟨c, t, rfl⟩ := exists_cons_of_ne_nil hne
  obtain ⟨hn, ht', hf, hN, hI⟩ := hword c (ht c mem_cons_self)
  -- Only `-Infinity` begins like a number, and its second character is none of a number.
  have hsecond : ∀ x ∈ (t ++ l).head?, x ≠ 'I' := by
    cases t with
    | nil =>
      intro x hx
      obtain rfl | rfl | rfl := hl x hx <;> decide
    | cons d =>
      intro x hx
      obtain rfl : d = x := by simpa using hx
      exact (hword d (ht d (by simp))).2.2.2.2
  rw [List.find?_eq_none]
  intro w hw
  simp only [jsonWords, mem_cons, not_mem_nil, or_false] at hw
  rw [List.isPrefixOf_iff_prefix]
  obtain rfl | rfl | rfl | rfl | rfl | rfl := hw
  all_goals
    rw [cons_append, cons_prefix_cons]
    rintro ⟨heq, hrest⟩
  · exact hn heq.symm
  · exact ht' heq.symm
  · exact hf heq.symm
  · exact hN heq.symm
  · exact hI heq.symm
  · obtain ⟨r, hr⟩ := hrest
    exact hsecond 'I' (by rw [← hr]; rfl) rfl

theorem scanPlain_number {t l : List Char} (ht : ∀ c ∈ t, isNumeric c = true) (hne : t ≠ [])
    (hl : Stops l) : scanPlain (t ++ l) = some (.num t, l) := by
  have hrun : numberRun (t ++ l) = t := by
    rw [numberRun, takeWhile_append_of_pos fun c hc ↦ by rw [ht c hc, Bool.true_or]]
    cases l with
    | nil => simp
    | cons c =>
      rw [takeWhile_cons_of_neg (by simp [not_isNumeric_of_stops hl c rfl]), append_nil]
  rw [scanPlain, find?_jsonWords_number ht hne hl, hrun]
  dsimp only
  rw [if_neg hne, drop_left]

/-! ## Values -/

theorem skipSpace_cons {c : Char} (hc : isJsonSpace c = false) (l : List Char) :
    skipSpace (c :: l) = c :: l := dropWhile_cons_of_neg (by simp [hc])

def Json.number? : Json → Option (List Char)
  | .int n => some (intText n)
  | .float f => some (es6Number f)
  | _ => none

theorem number_eq_some {v : Json} {t : List Char} (h : v.number? = some t) :
    v.text = t ∧ v.canon = .num t ∧ (∀ c ∈ t, isNumeric c = true) ∧ t ≠ [] := by
  cases v with
  | int n =>
    obtain rfl := some.inj h
    exact ⟨rfl, rfl, fun _ ↦ isNumeric_intText, intText_ne_nil n⟩
  | float f =>
    obtain rfl := some.inj h
    exact ⟨rfl, rfl, fun _ ↦ isNumeric_es6Number, es6Number_ne_nil f⟩
  | _ => cases h

theorem exists_text_eq (v : Json) : ∃ c l, v.text = c :: l ∧ isJsonSpace c = false ∧ c ≠ ']' := by
  cases hv : v.number? with
  | some t =>
    obtain ⟨ht, -, hnum, hne⟩ := number_eq_some hv
    obtain ⟨c, t, rfl⟩ := exists_cons_of_ne_nil hne
    have hc := hnum c mem_cons_self
    refine ⟨c, t, ht, ?_, ?_⟩
    · by_contra hspace
      rw [Bool.not_eq_false, isJsonSpace, decide_eq_true_eq] at hspace
      simp only [mem_cons, not_mem_nil, or_false] at hspace
      obtain rfl | rfl | rfl | rfl := hspace <;> revert hc <;> decide
    · rintro rfl
      revert hc
      decide
  | none =>
    cases v with
    | bool b => cases b <;> exact ⟨_, _, rfl, by decide, by decide⟩
    | int => cases hv
    | float => cases hv
    | _ => exact ⟨_, _, rfl, by decide, by decide⟩

theorem skipSpace_text (v : Json) (l : List Char) : skipSpace (v.text ++ l) = v.text ++ l := by
  obtain ⟨c, r, hc, hspace, -⟩ := exists_text_eq v
  rw [hc, cons_append, skipSpace_cons hspace]

theorem text_ne_close (v : Json) (l l' : List Char) : v.text ++ l ≠ ']' :: l' := by
  obtain ⟨c, r, hc, -, hclose⟩ := exists_text_eq v
  rw [hc, cons_append]
  exact fun h ↦ hclose (List.cons.inj h).1

/-- The text of a value is read back, with the rest of the text behind it. -/
def Json.Scans (v : Json) : Prop :=
  ∀ (n : ℕ) (l : List Char), 2 * v.text.length < n → Stops l →
    scanValue n (v.text ++ l) = some (v.canon, l)

theorem Json.Scans.of_succ {v : Json}
    (h : ∀ (n : ℕ) (l : List Char), 2 * v.text.length ≤ n → Stops l →
      scanValue (n + 1) (v.text ++ l) = some (v.canon, l)) : v.Scans := by
  intro n l hn hl
  obtain ⟨n, rfl⟩ := Nat.exists_eq_succ_of_ne_zero (Nat.ne_zero_of_lt hn)
  exact h n l (Nat.lt_succ_iff.1 hn) hl

theorem scans_word {v : Json} (hv : v = .null ∨ ∃ b, v = .bool b) : v.Scans := by
  refine .of_succ fun n l _ _ ↦ ?_
  obtain rfl | ⟨b, rfl⟩ := hv
  · rfl
  · cases b <;> rfl

theorem scans_str (s : String) : (Json.str s).Scans := by
  refine .of_succ fun n l _ _ ↦ ?_
  obtain ⟨r, htext, hread⟩ := scanString_escapeString s l
  rw [Json.text, htext, scanValue, if_pos rfl, hread, map_some, String.ofList_toList]
  rfl

theorem scans_number {v : Json} {t : List Char} (h : v.number? = some t) : v.Scans := by
  obtain ⟨ht, hcanon, hnum, hne⟩ := number_eq_some h
  refine .of_succ fun n l _ hl ↦ ?_
  obtain ⟨c, r, rfl⟩ := exists_cons_of_ne_nil hne
  have hc := hnum c mem_cons_self
  have hquote : c ≠ '"' ∧ c ≠ '{' ∧ c ≠ '[' := by
    refine ⟨?_, ?_, ?_⟩ <;> (rintro rfl; revert hc; decide)
  rw [ht, hcanon, cons_append, scanValue, if_neg hquote.1, if_neg hquote.2.1,
    if_neg hquote.2.2, ← cons_append, scanPlain_number hnum hne hl]

theorem commaSeparated_map_cons {α : Type} (t : α → List Char) (a b : α) (l : List α) :
    commaSeparated ((a :: b :: l).map t) = t a ++ ',' :: commaSeparated ((b :: l).map t) := rfl

theorem scanItems_texts {x : Json} {xs : List Json} (h : ∀ y ∈ x :: xs, y.Scans) {n : ℕ}
    {l : List Char} (hn : 2 * (commaSeparated ((x :: xs).map Json.text)).length + 1 < n) :
    scanItems n (commaSeparated ((x :: xs).map Json.text) ++ ']' :: l) =
      some ((x :: xs).map Json.canon, l) := by
  induction xs generalizing x n with
  | nil =>
    obtain ⟨n, rfl⟩ := Nat.exists_eq_succ_of_ne_zero (Nat.ne_zero_of_lt hn)
    have hx := h x mem_cons_self n (']' :: l) (by simp [commaSeparated] at hn; omega)
      (stops_cons (by simp))
    rw [map_singleton, commaSeparated, scanItems, hx]
    rfl
  | cons y xs ih =>
    obtain ⟨n, rfl⟩ := Nat.exists_eq_succ_of_ne_zero (Nat.ne_zero_of_lt hn)
    rw [commaSeparated_map_cons, length_append, length_cons] at hn
    have hx := h x mem_cons_self n
      (',' :: commaSeparated ((y :: xs).map Json.text) ++ ']' :: l) (by omega)
      (stops_cons (by simp))
    have hxs := @ih y (fun z hz ↦ h z (mem_cons_of_mem x hz)) n (by omega)
    have hspace : skipSpace (commaSeparated ((y :: xs).map Json.text) ++ ']' :: l) =
        commaSeparated ((y :: xs).map Json.text) ++ ']' :: l := by
      cases xs with
      | nil => exact skipSpace_text y _
      | cons =>
        rw [commaSeparated_map_cons, append_assoc]
        exact skipSpace_text y _
    rw [commaSeparated_map_cons, append_assoc, scanItems, hx]
    dsimp only
    rw [cons_append, skipSpace_cons (by decide)]
    change Option.map _ (scanItems n (skipSpace _)) = _
    rw [hspace, hxs]
    rfl

theorem scans_arr {xs : List Json} (h : ∀ x ∈ xs, x.Scans) : (Json.arr xs).Scans := by
  refine .of_succ fun n l hn _ ↦ ?_
  rw [Json.text, itemTexts_eq_map] at hn ⊢
  rw [cons_append, cons_append, append_assoc, singleton_append, scanValue]
  simp only [Char.reduceEq, ↓reduceIte]
  cases xs with
  | nil =>
    obtain ⟨n, rfl⟩ : ∃ k, n = k + 1 := ⟨n - 1, by simp [commaSeparated] at hn; omega⟩
    rfl
  | cons x xs =>
    have hlen : 2 * (commaSeparated ((x :: xs).map Json.text)).length + 4 ≤ n := by
      simp only [length_cons, length_append, length_nil] at hn
      omega
    obtain ⟨n, rfl⟩ : ∃ k, n = k + 1 := ⟨n - 1, by omega⟩
    have hitems := @scanItems_texts x xs h n l (by omega)
    have hsplit : ∃ r, commaSeparated ((x :: xs).map Json.text) ++ ']' :: l = x.text ++ r := by
      cases xs with
      | nil => exact ⟨_, rfl⟩
      | cons => exact ⟨_, by rw [commaSeparated_map_cons, append_assoc]⟩
    obtain ⟨r, hr⟩ := hsplit
    rw [hr, skipSpace_text, scanArray, ← hr, hitems]
    · rw [map_some, Json.canon, canonItems_eq_map]
    · exact fun r' ↦ text_ne_close x r r'

def memberText (m : String × Json) : List Char := escapeString m.1 ++ ':' :: m.2.text

theorem text_obj (ms : List (String × Json)) :
    (Json.obj ms).text = '{' :: commaSeparated ((sortKeys ms).map memberText) ++ ['}'] := by
  rw [Json.text, memberTexts_eq_map, sortKeys_map, List.map_map]
  rfl

theorem canon_obj (ms : List (String × Json)) :
    (Json.obj ms).canon = .obj ((sortKeys ms).map fun m ↦ (m.1, m.2.canon)) := by
  rw [Json.canon, canonMembers_eq_map, sortKeys_map]

theorem scanKey_memberText (m : String × Json) (l : List Char) :
    scanKey (memberText m ++ l) = some (m.1, m.2.text ++ l) := by
  obtain ⟨r, htext, hread⟩ := scanString_escapeString m.1 (':' :: (m.2.text ++ l))
  rw [memberText, append_assoc, cons_append, htext, scanKey, hread]
  dsimp only
  rw [skipSpace_cons (by decide)]
  change some (String.ofList m.1.toList, skipSpace (m.2.text ++ l)) = _
  rw [skipSpace_text, String.ofList_toList]

theorem scanMembers_texts {m : String × Json} {ms : List (String × Json)}
    (h : ∀ x ∈ m :: ms, x.2.Scans) {n : ℕ} {l : List Char}
    (hn : 2 * (commaSeparated ((m :: ms).map memberText)).length + 1 < n) :
    scanMembers n (commaSeparated ((m :: ms).map memberText) ++ '}' :: l) =
      some ((m :: ms).map fun x ↦ (x.1, x.2.canon), l) := by
  have hlen : ∀ x : String × Json, x.2.text.length < (memberText x).length := by
    intro x
    rw [memberText, length_append, length_cons]
    omega
  induction ms generalizing m n with
  | nil =>
    obtain ⟨n, rfl⟩ := Nat.exists_eq_succ_of_ne_zero (Nat.ne_zero_of_lt hn)
    rw [map_singleton, commaSeparated] at hn ⊢
    have := hlen m
    have hm := h m mem_cons_self n ('}' :: l) (by omega) (stops_cons (by simp))
    rw [scanMembers, scanKey_memberText]
    dsimp only
    rw [hm]
    rfl
  | cons m' ms ih =>
    obtain ⟨n, rfl⟩ := Nat.exists_eq_succ_of_ne_zero (Nat.ne_zero_of_lt hn)
    rw [commaSeparated_map_cons, length_append, length_cons] at hn
    have := hlen m
    have hm := h m mem_cons_self n
      (',' :: commaSeparated ((m' :: ms).map memberText) ++ '}' :: l) (by omega)
      (stops_cons (by simp))
    have hms := @ih m' (fun x hx ↦ h x (mem_cons_of_mem m hx)) n (by omega)
    have hspace : skipSpace (commaSeparated ((m' :: ms).map memberText) ++ '}' :: l) =
        commaSeparated ((m' :: ms).map memberText) ++ '}' :: l := by
      cases ms with
      | nil => exact skipSpace_cons (by decide) _
      | cons => exact skipSpace_cons (by decide) _
    rw [commaSeparated_map_cons, append_assoc, scanMembers, scanKey_memberText]
    dsimp only
    rw [hm]
    dsimp only
    rw [cons_append, skipSpace_cons (by decide)]
    change Option.map _ (scanMembers n (skipSpace _)) = _
    rw [hspace, hms]
    rfl

theorem scans_obj {ms : List (String × Json)} (h : ∀ m ∈ ms, m.2.Scans) : (Json.obj ms).Scans := by
  have hsorted : ∀ m ∈ sortKeys ms, m.2.Scans := fun m hm ↦
    h m ((perm_insertionSort _ ms).mem_iff.1 hm)
  refine .of_succ fun n l hn _ ↦ ?_
  rw [text_obj] at hn ⊢
  rw [canon_obj, cons_append, cons_append, append_assoc, singleton_append, scanValue]
  simp only [Char.reduceEq, ↓reduceIte]
  generalize sortKeys ms = ns at hn hsorted
  cases ns with
  | nil =>
    obtain ⟨n, rfl⟩ : ∃ k, n = k + 1 := ⟨n - 1, by simp [commaSeparated] at hn; omega⟩
    rfl
  | cons m ns =>
    have hlen : 2 * (commaSeparated ((m :: ns).map memberText)).length + 4 ≤ n := by
      simp only [length_cons, length_append, length_nil] at hn
      omega
    obtain ⟨n, rfl⟩ : ∃ k, n = k + 1 := ⟨n - 1, by omega⟩
    have hmembers := @scanMembers_texts m ns hsorted n l (by omega)
    have hhead : ∃ r, commaSeparated ((m :: ns).map memberText) ++ '}' :: l = '"' :: r := by
      cases ns with
      | nil => exact ⟨_, rfl⟩
      | cons => exact ⟨_, rfl⟩
    obtain ⟨r, hr⟩ := hhead
    rw [hr] at hmembers ⊢
    rw [skipSpace_cons (by decide), scanObject, hmembers, map_some]
    exact fun l h ↦ absurd (List.cons.inj h).1 (by decide)

mutual

/-- **Every value is read back** from its text, in front of a delimiter. -/
theorem scans : ∀ v : Json, v.Scans
  | .null => scans_word (.inl rfl)
  | .bool b => scans_word (.inr ⟨b, rfl⟩)
  | .int _ => scans_number rfl
  | .float _ => scans_number rfl
  | .str s => scans_str s
  | .arr xs => scans_arr (scans_items xs)
  | .obj ms => scans_obj (scans_members ms)

theorem scans_items : ∀ xs : List Json, ∀ x ∈ xs, x.Scans
  | [], _, h => absurd h not_mem_nil
  | x :: xs, y, h => by
    rcases mem_cons.1 h with hy | hy
    · rw [hy]
      exact scans x
    · exact scans_items xs y hy

theorem scans_members : ∀ ms : List (String × Json), ∀ m ∈ ms, m.2.Scans
  | [], _, h => absurd h not_mem_nil
  | (k, v) :: ms, m, h => by
    rcases mem_cons.1 h with hm | hm
    · rw [hm]
      exact scans v
    · exact scans_members ms m hm

end

/-! ## Equal sorted members -/

theorem eq_of_perm_of_keys {α : Type} {ms ms' : List (String × α)}
    (hkeys : ms.map Prod.fst = ms'.map Prod.fst) (hnodup : (ms.map Prod.fst).Nodup)
    (h : ms.Perm ms') : ms = ms' := by
  induction ms generalizing ms' with
  | nil => exact h.nil_eq
  | cons m ms ih =>
    cases ms' with
    | nil => exact absurd h.symm (not_perm_nil_cons m ms)
    | cons m' =>
      obtain ⟨hkey, hrest⟩ := List.cons.inj hkeys
      obtain ⟨hfresh, hnodup'⟩ := nodup_cons.1 hnodup
      have hm : m = m' := by
        rcases mem_cons.1 (h.mem_iff.1 mem_cons_self) with hm | hm
        · exact hm
        · refine absurd ?_ hfresh
          rw [hrest]
          exact List.mem_map_of_mem hm
      subst hm
      rw [ih hrest hnodup' h.cons_inv]

theorem eq_of_sortKeys {α : Type} {ms ms' : List (String × α)}
    (hkeys : ms.map Prod.fst = ms'.map Prod.fst) (hnodup : (ms.map Prod.fst).Nodup)
    (h : sortKeys ms = sortKeys ms') : ms = ms' :=
  eq_of_perm_of_keys hkeys hnodup ((perm_insertionSort _ ms).symm.trans
      ((List.Perm.of_eq h).trans (perm_insertionSort _ ms')))

@[simp] theorem intText_eq_iff {m n : ℤ} : intText m = intText n ↔ m = n :=
  ⟨intText_inj, congrArg intText⟩

theorem scanText_text (v : Json) : scanText v.text = some v.canon := by
  have hspace := skipSpace_text v []
  have hscan := scans v (2 * v.text.length + 1) [] (by omega) stops_nil
  rw [append_nil] at hspace hscan
  rw [scanText, hspace, hscan]
  rfl

theorem canon_of_text {v w : Json} (h : v.text = w.text) : v.canon = w.canon := by
  have hscan := scanText_text v
  rw [h, scanText_text w] at hscan
  exact (some.inj hscan).symm

/-- **Canonical JSON is injective** up to the order of members and the type of numbers. -/
theorem canon_of_canonicalJson {v w : Json} {bytes : List UInt8} (hv : canonicalJson v = .ok bytes)
    (hw : canonicalJson w = .ok bytes) : v.canon = w.canon := by
  have hbytes : ∀ {x : Json}, canonicalJson x = .ok bytes →
      x.text.flatMap String.utf8EncodeChar = bytes := by
    intro x hx
    rw [canonicalJson] at hx
    split at hx
    · exact Except.ok.inj hx
    · cases hx
  refine canon_of_text (String.ofList_injective (String.toByteArray_inj.1 ?_))
  rw [String.toByteArray_ofList, String.toByteArray_ofList, List.utf8Encode, List.utf8Encode,
    hbytes hv, hbytes hw]

end AgentColab
