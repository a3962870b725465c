import AgentColab.Events.Json
import Mathlib.Data.List.Induction
import Mathlib.Data.List.Lex

/-!
# Canonical JSON

RFC 8785: members sorted by the UTF-16 form of their keys, ECMAScript number formatting, no
insignificant whitespace, encoded as UTF-8. Comparing UTF-16 code units is comparing the bytes of
the big-endian form.

A payload is hashed as it was handed in and again as it is read back. The order of members does not
matter. A float from `1e16` on comes back as an integer, and the text of the float is that of the
integer only below `1e21`, where ECMAScript switches to an exponent.
-/

namespace AgentColab

open List

/-- Raised when a value cannot be represented in canonical JSON. -/
inductive CanonicalizationError where
  | nonFinite
deriving DecidableEq, Repr

/-! ## Text -/

def hex4 (n : ℕ) : List Char :=
  [n / 4096 % 16, n / 256 % 16, n / 16 % 16, n % 16].map Nat.digitChar

def escapeChar (ch : Char) : List Char :=
  if ch = '\x08' then ['\\', 'b']
  else if ch = '\t' then ['\\', 't']
  else if ch = '\n' then ['\\', 'n']
  else if ch = '\x0c' then ['\\', 'f']
  else if ch = '\r' then ['\\', 'r']
  else if ch = '"' then ['\\', '"']
  else if ch = '\\' then ['\\', '\\']
  else if ch.toNat < 0x20 then '\\' :: 'u' :: hex4 ch.toNat
  else [ch]

def escapeString (value : String) : List Char :=
  '"' :: value.toList.flatMap escapeChar ++ ['"']

/-- `str` of an integer. -/
def intText (n : ℤ) : List Char :=
  if n < 0 then '-' :: Nat.toDigits 10 n.natAbs else Nat.toDigits 10 n.natAbs

/-- ECMAScript `Number::toString` of a finite float; the text of the others is not used. -/
def es6Number : PyFloat → List Char
  | .num d =>
    let sign := if d.neg then ['-'] else []
    let digits := d.digits.map Nat.digitChar
    let k := digits.length
    let n := d.point
    if k ≤ n ∧ n ≤ 21 then sign ++ digits ++ List.replicate (n.toNat - k) '0'
    else if 0 < n ∧ n ≤ 21 then sign ++ digits.take n.toNat ++ ['.'] ++ digits.drop n.toNat
    else if -6 < n ∧ n ≤ 0 then
      sign ++ ['0', '.'] ++ List.replicate (-n).toNat '0' ++ digits
    else
      let e := n - 1
      let expText := ['e', if 0 ≤ e then '+' else '-'] ++ Nat.toDigits 10 e.natAbs
      if k = 1 then sign ++ digits ++ expText
      else sign ++ digits.take 1 ++ ['.'] ++ digits.drop 1 ++ expText
  | _ => ['0']

def utf16Char (c : Char) : List ℕ :=
  if c.toNat < 0x10000 then [c.toNat]
  else [0xD800 + (c.toNat - 0x10000) / 1024, 0xDC00 + (c.toNat - 0x10000) % 1024]

/-- The UTF-16 code units of a string. -/
def utf16 (s : String) : List ℕ := s.toList.flatMap utf16Char

def sortKeys {α : Type} (ms : List (String × α)) : List (String × α) :=
  ms.insertionSort fun a b ↦ utf16 a.1 ≤ utf16 b.1

def commaSeparated : List (List Char) → List Char
  | [] => []
  | [t] => t
  | t :: u :: ts => t ++ ',' :: commaSeparated (u :: ts)

mutual

/-- The canonical text of a value without non-finite floats, whose members are sorted after their
values have been written. -/
def Json.text : Json → List Char
  | .null => ['n', 'u', 'l', 'l']
  | .bool true => ['t', 'r', 'u', 'e']
  | .bool false => ['f', 'a', 'l', 's', 'e']
  | .int n => intText n
  | .float f => es6Number f
  | .str s => escapeString s
  | .arr xs => '[' :: commaSeparated (itemTexts xs) ++ [']']
  | .obj ms => '{' ::
      commaSeparated ((sortKeys (memberTexts ms)).map fun m ↦ escapeString m.1 ++ ':' :: m.2) ++
      ['}']

def itemTexts : List Json → List (List Char)
  | [] => []
  | x :: xs => x.text :: itemTexts xs

def memberTexts : List (String × Json) → List (String × List Char)
  | [] => []
  | (k, v) :: ms => (k, v.text) :: memberTexts ms

end

/-- **Canonical JSON**, as UTF-8 bytes. A non-finite float anywhere in the value is an error. -/
def canonicalJson (value : Json) : Except CanonicalizationError (List UInt8) :=
  if value.isFinite then .ok (value.text.flatMap String.utf8EncodeChar) else .error .nonFinite

/-! ## The sort is determined by the keys -/

theorem utf16Char_append_inj {c d : Char} {l l' : List ℕ}
    (h : utf16Char c ++ l = utf16Char d ++ l') : c = d ∧ l = l' := by
  have hc := c.valid
  have hd := d.valid
  simp only [UInt32.isValidChar, Nat.isValidChar] at hc hd
  have hcn : c.toNat = c.val.toNat := rfl
  have hdn : d.toNat = d.val.toNat := rfl
  rw [utf16Char, utf16Char] at h
  split at h <;> split at h <;> simp only [cons_append, nil_append, List.cons.injEq] at h
  · exact ⟨Char.toNat_inj.1 h.1, h.2⟩
  · omega
  · omega
  · exact ⟨Char.toNat_inj.1 (by omega), h.2.2⟩

theorem utf16Char_ne_nil (c : Char) : utf16Char c ≠ [] := by
  rw [utf16Char]
  split <;> simp

theorem flatMap_utf16Char_injective {l l' : List Char}
    (h : l.flatMap utf16Char = l'.flatMap utf16Char) : l = l' := by
  induction l generalizing l' with
  | nil =>
    cases l' with
    | nil => rfl
    | cons => simp [utf16Char_ne_nil] at h
  | cons c l ih =>
    cases l' with
    | nil => simp [utf16Char_ne_nil] at h
    | cons =>
      obtain ⟨rfl, htail⟩ := utf16Char_append_inj h
      rw [ih htail]

theorem utf16_injective : Function.Injective utf16 := fun _ _ h ↦
  String.toList_inj.1 (flatMap_utf16Char_injective h)

/-- Members with distinct keys are sorted the same way from any order. -/
theorem sortKeys_perm {α : Type} {ms ms' : List (String × α)} (h : ms.Perm ms')
    (hnd : (ms.map Prod.fst).Nodup) : sortKeys ms = sortKeys ms' := by
  let r : String × α → String × α → Prop := fun a b ↦ utf16 a.1 ≤ utf16 b.1
  have : Std.Total r := ⟨fun a b ↦ le_total (utf16 a.1) (utf16 b.1)⟩
  have : IsTrans (String × α) r := ⟨fun _ _ _ hab hbc ↦ @le_trans (List ℕ) _ _ _ _ hab hbc⟩
  refine List.Perm.eq_of_pairwise ?_ (pairwise_insertionSort r ms) (pairwise_insertionSort r ms')
    ((perm_insertionSort r ms).trans (h.trans (perm_insertionSort r ms').symm))
  intro a b ha hb hab hba
  have ha' : a ∈ ms := (perm_insertionSort r ms).mem_iff.1 ha
  have hb' : b ∈ ms := h.mem_iff.2 ((perm_insertionSort r ms').mem_iff.1 hb)
  exact inj_on_of_nodup_map hnd ha' hb' (utf16_injective (le_antisymm hab hba))

/-! ## Numbers -/

theorem toDigits_natOfDigits {ds : List ℕ} (hlt : ∀ d ∈ ds, d < 10) (hhead : ds.head? ≠ some 0)
    (hpos : 0 < ds.length) : 0 < Decimal.natOfDigits ds ∧
      Nat.toDigits 10 (Decimal.natOfDigits ds) = ds.map Nat.digitChar := by
  induction ds using List.reverseRecOn with
  | nil => simp at hpos
  | append_singleton ds d ih =>
    have hd : d < 10 := hlt d (by simp)
    rw [Decimal.natOfDigits_concat]
    by_cases hds : ds = []
    · subst hds
      have hd0 : d ≠ 0 := by simpa using hhead
      have hzero : Decimal.natOfDigits [] = 0 := rfl
      rw [hzero, Nat.mul_zero, Nat.zero_add]
      exact ⟨Nat.pos_of_ne_zero hd0, Nat.toDigits_of_lt_base hd⟩
    · have hlen : 0 < ds.length := length_pos_iff.2 hds
      obtain ⟨hp, htext⟩ := ih (fun x hx ↦ hlt x (by simp [hx]))
        (by rwa [List.head?_append_of_ne_nil _ hds] at hhead) hlen
      refine ⟨by omega, ?_⟩
      rw [← Nat.toDigits_append_toDigits (by decide) hp hd, htext, Nat.toDigits_of_lt_base hd,
        map_append, map_singleton]

/-- Below `10 ^ 21` a float without a fractional part and the integer it comes back as have the same
text. -/
theorem intText_toInt {d : Decimal} (hint : d.digits.length ≤ d.point) (h21 : d.point ≤ 21) :
    intText d.toInt = es6Number (.num d) := by
  obtain ⟨hp, htext⟩ := @toDigits_natOfDigits
    (d.digits ++ List.replicate (d.point.toNat - d.digits.length) 0)
    (fun x hx ↦ by
      rcases mem_append.1 hx with hx | hx
      · exact d.digits_lt x hx
      · rw [(mem_replicate.1 hx).2]
        decide)
    (by
      rw [List.head?_append_of_ne_nil _ (length_pos_iff.1 d.length_pos)]
      exact d.head_ne)
    (by
      rw [length_append]
      have := d.length_pos
      omega)
  have hk : (d.digits.map Nat.digitChar).length ≤ d.point := by rwa [length_map]
  rw [map_append, map_replicate, show Nat.digitChar 0 = '0' from rfl] at htext
  rw [es6Number, if_pos ⟨hk, h21⟩, intText, Decimal.toInt, length_map]
  cases d.neg with
  | false =>
    rw [if_neg Bool.false_ne_true, if_neg (by omega), Int.natAbs_natCast, htext]
    simp
  | true =>
    rw [if_pos rfl, if_pos (by omega), Int.natAbs_neg, Int.natAbs_natCast, htext]
    simp

variable {f : PyFloat}

theorem text_float_stored (hs : f.isSmall = true) : f.stored.text = es6Number f := by
  cases f with
  | nan => rfl
  | inf => rfl
  | zero => rfl
  | num d =>
    rw [PyFloat.stored]
    by_cases h16 : 16 < d.point
    · have hint : d.digits.length ≤ d.point := by
        have := d.length_le
        omega
      rw [if_pos h16, Json.text, intText_toInt hint (by simpa [PyFloat.isSmall] using hs)]
    · rw [if_neg h16, Json.text]

/-! ## Storage does not change the text -/

theorem memberTexts_eq_map (ms : List (String × Json)) :
    memberTexts ms = ms.map fun m ↦ (m.1, m.2.text) := by
  induction ms with
  | nil => rfl
  | cons m _ ih => rw [memberTexts, ih, map_cons]

theorem keys_memberTexts (ms : List (String × Json)) :
    (memberTexts ms).map Prod.fst = ms.map Prod.fst := by
  rw [memberTexts_eq_map, List.map_map]
  rfl

mutual

/-- **Storage keeps the canonical text** of a dict whose floats are below `10 ^ 21`. -/
theorem text_stored : ∀ v : Json, v.isSmall = true → v.isDict = true → v.stored.text = v.text
  | .null, _, _ => rfl
  | .bool _, _, _ => rfl
  | .int _, _, _ => rfl
  | .str _, _, _ => rfl
  | .float f, hs, _ => by
    rw [Json.stored, Json.text]
    exact text_float_stored hs
  | .arr xs, hs, hd => by
    rw [Json.stored, Json.text, Json.text, itemTexts_stored xs hs hd]
  | .obj ms, hs, hd => by
    have hs' : allMembers PyFloat.isSmall (fun _ ↦ true) ms = true := by
      simpa [Json.isSmall, Json.All] using hs
    have hd' : (ms.map Prod.fst).Nodup ∧
        allMembers (fun _ ↦ true) (fun ks ↦ decide ks.Nodup) ms = true := by
      simpa [Json.isDict, Json.All] using hd
    have hperm : (memberTexts ((storedMembers ms).insertionSort
        fun a b ↦ jsonbLe a.1 b.1)).Perm (memberTexts ms) := by
      rw [← memberTexts_stored ms hs' hd'.2, memberTexts_eq_map, memberTexts_eq_map]
      exact (perm_insertionSort _ _).map _
    have hnd := (hperm.map Prod.fst).nodup_iff.2 (by rw [keys_memberTexts]; exact hd'.1)
    rw [Json.stored, Json.text, Json.text, sortKeys_perm hperm hnd]

theorem itemTexts_stored : ∀ xs : List Json, allItems PyFloat.isSmall (fun _ ↦ true) xs = true →
    allItems (fun _ ↦ true) (fun ks ↦ decide ks.Nodup) xs = true →
    itemTexts (storedItems xs) = itemTexts xs
  | [], _, _ => rfl
  | x :: xs, hs, hd => by
    rw [allItems, Bool.and_eq_true] at hs hd
    rw [storedItems, itemTexts, itemTexts, text_stored x hs.1 hd.1, itemTexts_stored xs hs.2 hd.2]

theorem memberTexts_stored : ∀ ms : List (String × Json),
    allMembers PyFloat.isSmall (fun _ ↦ true) ms = true →
    allMembers (fun _ ↦ true) (fun ks ↦ decide ks.Nodup) ms = true →
    memberTexts (storedMembers ms) = memberTexts ms
  | [], _, _ => rfl
  | (k, v) :: ms, hs, hd => by
    rw [allMembers, Bool.and_eq_true] at hs hd
    rw [storedMembers, memberTexts, memberTexts, text_stored v hs.1 hd.1,
      memberTexts_stored ms hs.2 hd.2]

end

theorem allMembers_eq_all (P : PyFloat → Bool) (O : List String → Bool)
    (ms : List (String × Json)) : allMembers P O ms = ms.all fun m ↦ m.2.All P O := by
  induction ms with
  | nil => rfl
  | cons m _ ih => rw [allMembers, ih, all_cons]

theorem isFinite_float_stored (h : f.isFinite = true) : f.stored.isFinite = true := by
  cases f with
  | nan => exact h
  | inf => exact h
  | zero => rfl
  | num =>
    rw [PyFloat.stored]
    split <;> rfl

mutual

theorem isFinite_stored : ∀ v : Json, v.isFinite = true → v.stored.isFinite = true
  | .null, _ => rfl
  | .bool _, _ => rfl
  | .int _, _ => rfl
  | .str _, _ => rfl
  | .float _, h => isFinite_float_stored h
  | .arr xs, h => allItems_isFinite_stored xs h
  | .obj ms, h => by
    have hms : allMembers PyFloat.isFinite (fun _ ↦ true) ms = true := by
      simpa [Json.isFinite, Json.All] using h
    have hstored := allMembers_isFinite_stored ms hms
    rw [allMembers_eq_all] at hstored
    rw [Json.stored, Json.isFinite, Json.All, Bool.true_and, allMembers_eq_all,
      (perm_insertionSort _ _).all_eq]
    exact hstored

theorem allItems_isFinite_stored : ∀ xs : List Json,
    allItems PyFloat.isFinite (fun _ ↦ true) xs = true →
    allItems PyFloat.isFinite (fun _ ↦ true) (storedItems xs) = true
  | [], _ => rfl
  | x :: xs, h => by
    rw [allItems, Bool.and_eq_true] at h
    rw [storedItems, allItems, Bool.and_eq_true]
    exact ⟨isFinite_stored x h.1, allItems_isFinite_stored xs h.2⟩

theorem allMembers_isFinite_stored : ∀ ms : List (String × Json),
    allMembers PyFloat.isFinite (fun _ ↦ true) ms = true →
    allMembers PyFloat.isFinite (fun _ ↦ true) (storedMembers ms) = true
  | [], _ => rfl
  | (_, v) :: ms, h => by
    rw [allMembers, Bool.and_eq_true] at h
    rw [storedMembers, allMembers, Bool.and_eq_true]
    exact ⟨isFinite_stored v h.1, allMembers_isFinite_stored ms h.2⟩

end

end AgentColab
