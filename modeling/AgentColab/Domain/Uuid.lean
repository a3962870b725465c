import Mathlib.Data.List.Basic

/-!
# UUIDs and their texts

A UUID is kept as its canonical text: 32 lower-case hexadecimal digits in groups of 8, 4, 4, 4 and
12. `uuid.UUID` accepts many other texts; `parseUuid` follows it (for ASCII input) through its
removal of prefixes, braces and hyphens and through `int(text, 16)`. A text in canonical form is the
text of the UUID it is parsed to (`parseUuid_of_isUuidText`).
-/

namespace AgentColab

open List

def isLowerHex (c : Char) : Bool := c.isDigit || ('a' ≤ c && c ≤ 'f')

/-- `^[0-9a-f]{8}-[0-9a-f]{4}-[0-9a-f]{4}-[0-9a-f]{4}-[0-9a-f]{12}$` -/
def isUuidChars (cs : List Char) : Bool :=
  match cs.splitOn '-' with
  | [a, b, c, d, e] =>
    a.length == 8 && b.length == 4 && c.length == 4 && d.length == 4 && e.length == 12 &&
      (a ++ b ++ c ++ d ++ e).all isLowerHex
  | _ => false

def isUuidText (s : String) : Bool := isUuidChars s.toList

structure Uuid where
  text : String
  canonical : isUuidText text = true
deriving DecidableEq

/-! ## `uuid.UUID` -/

/-- `str.replace(pat, "")`; the counter is what is left of a match in progress. -/
def removeAll (pat : List Char) : ℕ → List Char → List Char
  | _, [] => []
  | n + 1, _ :: cs => removeAll pat n cs
  | 0, c :: cs =>
    if pat.isPrefixOf (c :: cs) then removeAll pat (pat.length - 1) cs else c :: removeAll pat 0 cs

/-- `str.strip` for the characters that satisfy `p`. -/
def stripChars (p : Char → Bool) (cs : List Char) : List Char :=
  ((cs.dropWhile p).reverse.dropWhile p).reverse

def isPySpace (c : Char) : Bool := c == ' ' || (9 ≤ c.toNat && c.toNat ≤ 13)

/-- Digits with single underscores between them. -/
def hexGroups : List Char → Option (List Char)
  | [] => none
  | [c] => if isLowerHex c then some [c] else none
  | c :: d :: cs =>
    if !isLowerHex c then none
    else if d = '_' then (hexGroups cs).map (c :: ·)
    else (hexGroups (d :: cs)).map (c :: ·)

/-- The digits that `int(text, 16)` reads, of a text without `-`. -/
def intDigits (cs : List Char) : Option (List Char) :=
  match (stripChars isPySpace cs).map Char.toLower with
  | '+' :: '0' :: 'x' :: '_' :: ds => hexGroups ds
  | '+' :: '0' :: 'x' :: ds => hexGroups ds
  | '+' :: ds => hexGroups ds
  | '0' :: 'x' :: '_' :: ds => hexGroups ds
  | '0' :: 'x' :: ds => hexGroups ds
  | ds => hexGroups ds

def uuidText (ds : List Char) : List Char :=
  ds.take 8 ++ '-' :: ((ds.drop 8).take 4 ++ '-' :: ((ds.drop 12).take 4 ++
    '-' :: ((ds.drop 16).take 4 ++ '-' :: (ds.drop 20).take 12)))

/-- The 32 characters that are left of a text when `uuid.UUID` hands it to `int`. -/
def uuidHex (cs : List Char) : List Char :=
  (stripChars (fun c ↦ c == '{' || c == '}')
    (removeAll "uuid:".toList 0 (removeAll "urn:".toList 0 cs))).filter (· != '-')

/-- **`uuid.UUID(text)`**; `none` is `ValueError`. -/
def parseUuid (s : String) : Option Uuid :=
  let hex := uuidHex s.toList
  if hex.length = 32 then
    (intDigits hex).bind fun ds ↦
      let text := String.ofList (uuidText (List.replicate (32 - ds.length) '0' ++ ds))
      if h : isUuidText text = true then some ⟨text, h⟩ else none
  else none

/-! ## Canonical texts -/

variable {cs : List Char} {c : Char}

theorem removeAll_of_not_mem {p : Char} {pat : List Char} (h : p ∉ cs) :
    removeAll (p :: pat) 0 cs = cs := by
  induction cs with
  | nil => rw [removeAll]
  | cons c _ ih =>
    rw [mem_cons, not_or] at h
    rw [removeAll, isPrefixOf_cons_cons, beq_eq_false_iff_ne.2 h.1, Bool.false_and,
      if_neg Bool.false_ne_true, ih h.2]

theorem stripChars_eq_self {p : Char → Bool} (h : ∀ c ∈ cs, p c = false) :
    stripChars p cs = cs := by
  have hdrop : ∀ l : List Char, (∀ c ∈ l, p c = false) → l.dropWhile p = l := by
    intro l hl
    cases l with
    | nil => rfl
    | cons c => rw [dropWhile_cons, hl c mem_cons_self, if_neg Bool.false_ne_true]
  rw [stripChars, hdrop cs h, hdrop cs.reverse fun c hc ↦ h c (mem_reverse.1 hc), reverse_reverse]

theorem isLowerHex_ne {d : Char} (hc : isLowerHex c = true) (hd : isLowerHex d = false) :
    c ≠ d := by
  rintro rfl
  rw [hc] at hd
  exact Bool.noConfusion hd

theorem hexGroups_of_forall (hne : cs ≠ []) (h : ∀ c ∈ cs, isLowerHex c = true) :
    hexGroups cs = some cs := by
  induction cs with
  | nil => exact absurd rfl hne
  | cons c cs ih =>
    have hc : isLowerHex c = true := h c mem_cons_self
    cases cs with
    | nil => rw [hexGroups, if_pos hc]
    | cons d =>
      have hd : isLowerHex d = true := h d (by simp)
      rw [hexGroups, hc, Bool.not_true, if_neg Bool.false_ne_true,
        if_neg (isLowerHex_ne hd (by decide)), ih (by simp) fun x hx ↦ h x (by simp_all),
        Option.map_some]

theorem toLower_of_isLowerHex (h : isLowerHex c = true) : c.toLower = c := by
  have hup : ¬(c.val ≥ 'A'.val ∧ c.val ≤ 'Z'.val) := by
    simp only [isLowerHex, Char.isDigit, Bool.or_eq_true, Bool.and_eq_true, decide_eq_true_eq,
      ge_iff_le, UInt32.le_iff_toNat_le, Char.le_def] at h ⊢
    have h57 : ('9' : Char).val.toNat = 57 := rfl
    have h97 : ('a' : Char).val.toNat = 97 := rfl
    have h65 : ('A' : Char).val.toNat = 65 := rfl
    have h90 : ('Z' : Char).val.toNat = 90 := rfl
    omega
  exact dif_neg hup

theorem intDigits_of_forall (hne : cs ≠ []) (h : ∀ c ∈ cs, isLowerHex c = true) :
    intDigits cs = some cs := by
  have hspace : ∀ c ∈ cs, isPySpace c = false := by
    intro c hc
    have hhex := h c hc
    simp only [isLowerHex, Char.isDigit, Bool.or_eq_true, Bool.and_eq_true, decide_eq_true_eq,
      UInt32.le_iff_toNat_le, Char.le_def, ge_iff_le] at hhex
    have h48 : ('0' : Char).val.toNat = 48 := rfl
    have h97 : ('a' : Char).val.toNat = 97 := rfl
    have hval : c.toNat = c.val.toNat := rfl
    have hne : c ≠ ' ' := by
      rintro rfl
      exact absurd (h _ hc) (by decide)
    simp only [isPySpace, beq_eq_false_iff_ne.2 hne, Bool.false_or, Bool.and_eq_false_iff,
      decide_eq_false_iff_not]
    omega
  have hmap : cs.map Char.toLower = cs := by
    rw [map_congr_left fun c hc ↦ toLower_of_isLowerHex (h c hc), List.map_id']
  have hx : ∀ d ∈ cs, d ≠ 'x' := fun d hd ↦ isLowerHex_ne (h d hd) (by decide)
  have hplus : ∀ d ∈ cs, d ≠ '+' := fun d hd ↦ isLowerHex_ne (h d hd) (by decide)
  rw [intDigits, stripChars_eq_self hspace, hmap]
  split
  · exact absurd rfl (hplus '+' (by simp))
  · exact absurd rfl (hplus '+' (by simp))
  · exact absurd rfl (hplus '+' (by simp))
  · exact absurd rfl (hx 'x' (by simp))
  · exact absurd rfl (hx 'x' (by simp))
  · exact hexGroups_of_forall hne h

theorem isUuidChars_cases (h : isUuidChars cs = true) :
    ∃ a b c d e : List Char, a.length = 8 ∧ b.length = 4 ∧ c.length = 4 ∧ d.length = 4 ∧
      e.length = 12 ∧ (∀ x ∈ a ++ b ++ c ++ d ++ e, isLowerHex x = true) ∧
      cs = a ++ '-' :: (b ++ '-' :: (c ++ '-' :: (d ++ '-' :: e))) := by
  rw [isUuidChars] at h
  split at h
  · rename_i a b c d e hsplit
    simp only [Bool.and_eq_true, beq_iff_eq, List.all_eq_true] at h
    obtain ⟨⟨⟨⟨⟨ha, hb⟩, hc⟩, hd⟩, he⟩, hall⟩ := h
    refine ⟨a, b, c, d, e, ha, hb, hc, hd, he, hall, ?_⟩
    have hcs : ['-'].intercalate (cs.splitOn '-') = cs := intercalate_splitOn '-'
    rw [hsplit] at hcs
    simpa [List.intercalate, List.intersperse] using hcs.symm
  · exact absurd h Bool.false_ne_true

/-- **A canonical text is the text of the UUID it names.** -/
theorem parseUuid_of_isUuidText {s : String} (h : isUuidText s = true) :
    parseUuid s = some ⟨s, h⟩ := by
  obtain ⟨a, b, c, d, e, ha, hb, hc, hd, he, hall, hs⟩ := isUuidChars_cases h
  have hmem : ∀ x ∈ s.toList, x = '-' ∨ isLowerHex x = true := by
    intro x hx
    rw [hs] at hx
    have := hall x
    simp only [mem_append, mem_cons] at hx this
    tauto
  have hnot : ∀ x, x ≠ '-' → isLowerHex x = false → x ∉ s.toList := fun x h1 h2 hx ↦
    (hmem x hx).elim h1 fun h3 ↦ isLowerHex_ne h3 h2 rfl
  have hurn : removeAll "urn:".toList 0 s.toList = s.toList :=
    removeAll_of_not_mem (hnot 'u' (by decide) (by decide))
  have huuid : removeAll "uuid:".toList 0 s.toList = s.toList :=
    removeAll_of_not_mem (hnot 'u' (by decide) (by decide))
  have hbrace : stripChars (fun c ↦ c == '{' || c == '}') s.toList = s.toList := by
    refine stripChars_eq_self fun x hx ↦ ?_
    have h1 : x ≠ '{' := by
      rintro rfl
      exact hnot '{' (by decide) (by decide) hx
    have h2 : x ≠ '}' := by
      rintro rfl
      exact hnot '}' (by decide) (by decide) hx
    simp [h1, h2]
  have hfilter : ∀ l : List Char, (∀ x ∈ l, isLowerHex x = true) → l.filter (· != '-') = l :=
    fun l hl ↦ filter_eq_self.2 fun x hx ↦ by
      simpa using isLowerHex_ne (hl x hx) (by decide)
  have hhex : uuidHex s.toList = a ++ b ++ c ++ d ++ e := by
    rw [uuidHex, hurn, huuid, hbrace, hs]
    simp only [mem_append] at hall
    simp only [filter_append, filter_cons, bne_self_eq_false, Bool.false_eq_true,
      if_false, append_assoc]
    rw [hfilter a fun x hx ↦ hall x (by tauto), hfilter b fun x hx ↦ hall x (by tauto),
      hfilter c fun x hx ↦ hall x (by tauto), hfilter d fun x hx ↦ hall x (by tauto),
      hfilter e fun x hx ↦ hall x (by tauto)]
  have hlen : (a ++ b ++ c ++ d ++ e).length = 32 := by
    simp only [length_append]
    omega
  have htext : uuidText (a ++ b ++ c ++ d ++ e) = s.toList := by
    rw [hs, uuidText]
    simp only [append_assoc, take_append, drop_append, ha, hb, hc, hd]
    simp [take_of_length_le, drop_of_length_le, ha, hb, hc, hd, he]
  have hne : a ++ b ++ c ++ d ++ e ≠ [] := fun h0 ↦ by
    rw [h0] at hlen
    exact absurd hlen (by decide)
  have hof : String.ofList s.toList = s := String.ofList_toList
  simp only [parseUuid, hhex]
  rw [if_pos hlen, intDigits_of_forall hne hall, Option.bind_some, hlen, Nat.sub_self,
    replicate_zero, nil_append]
  simp only [htext, hof, h, dif_pos]

end AgentColab
