import AgentColab.Documents.Headings
import AgentColab.Regex.Scanning
import Mathlib

/-!
# Redaction

Five rules are applied one after another, each a pattern whose matches are replaced by a marker. A
text is redacted piece by piece where a number sign stands (`redact_append`), and no match ends at a
line break, so redaction adds no heading.

What the interpreter knows of characters outside ASCII is a parameter.
-/

namespace AgentColab.Documents

open List
open Regex (sub Piece scanned scan)

open Regex (literal oneOf)

/-! ## Characters -/

/-- What the interpreter knows of the characters outside ASCII. -/
structure Unicode where
  /-- `str.isalnum` of a character outside ASCII. -/
  alnum : Char → Bool
  /-- `str.lower` -/
  lower : String → String

/-- `\w` -/
def Unicode.word (uni : Unicode) (c : Char) : Bool :=
  if c.toNat < 128 then c.isAlphanum || c = '_' else uni.alnum c

/-! ## Rules -/

/-- `RULES`, in their order. -/
inductive Rule where
  | canary
  | email
  | card
  | phone
  | token

namespace Rule

def all : List Rule := [canary, email, card, phone, token]

def name : Rule → String
  | canary => "canary"
  | email => "email"
  | card => "card"
  | phone => "phone"
  | token => "token"

/-- `MARKERS` -/
def marker : Rule → String
  | canary => "[redacted: secret]"
  | token => "[redacted: secret]"
  | email => "[redacted: email]"
  | phone => "[redacted: phone]"
  | card => "[redacted: card]"

def inOrder : List Regex → Regex
  | [] => .eps
  | [r] => r
  | r :: rs => .seq r (inOrder rs)

/-- Between `least` and `most` digits. -/
def digits (least most : ℕ) : Regex := .rep (.char isDecimal) least (some most)

/-- A character that may be absent. -/
def optional (p : Char → Bool) : Regex := .rep (.char p) 0 (some 1)

/-- `[A-Za-z0-9._%+-]` -/
def isLocal (c : Char) : Bool := c.isAlphanum || c ∈ ['.', '_', '%', '+', '-']

/-- `[A-Za-z0-9.-]` -/
def isDomain (c : Char) : Bool := c.isAlphanum || c ∈ ['.', '-']

/-- `[\s-]` -/
def isGap (c : Char) : Bool := isSpace c || c = '-'

def pattern (uni : Unicode) : Rule → Regex
  | canary => .seq (literal "CANARY-NOT-A-SECRET-".toList) (digits 4 4)
  | email =>
    inOrder [.notBehind isLocal, .rep (.char isLocal) 1 none, .char (· = '@'),
      .rep (.char isDomain) 1 none, .char (· = '.'), .rep (.char Char.isAlpha) 2 none]
  | card =>
    inOrder [.notBehind Char.isAlphanum,
      .rep (.seq (.char isDecimal) (optional fun c ↦ c ∈ [' ', '-'])) 12 (some 18),
      .char isDecimal, .notAhead Char.isAlphanum]
  | phone =>
    inOrder [.notBehind fun c ↦ uni.word c || c = '+', .char (· = '+'), digits 1 3, optional isGap,
      digits 2 4, optional isGap, digits 3 4, optional isGap, digits 3 4, .notAhead isDecimal]
  | token =>
    inOrder [.boundary uni.word,
      .alt (inOrder [literal "xox".toList, .char (· ∈ ['b', 'a', 'p', 'r', 's']), .char (· = '-'),
          .rep (.char fun c ↦ c.isAlphanum || c = '-') 10 none])
        (inOrder [literal "gh".toList, .char (· ∈ ['p', 'o', 'u', 's', 'r']), .char (· = '_'),
          .rep (.char Char.isAlphanum) 20 none]), .boundary uni.word]

/-- `_luhn`: a digit in a place of the parity of the length is doubled. -/
def luhn (digits : List ℕ) : Bool :=
  (digits.mapIdx fun index value ↦
    if index % 2 = digits.length % 2 then
      if 2 * value > 9 then 2 * value - 9 else 2 * value
    else value).sum % 10 = 0

/-- `_accepts` -/
def accepts (rule : Rule) (matched : List Char) : Bool :=
  match rule with
  | card =>
    let digits := (matched.filter Char.isDigit).map fun c ↦ c.toNat - 48
    13 ≤ digits.length && digits.length ≤ 19 && luhn digits
  | _ => true

/-- `_replace` -/
def replace (rule : Rule) (matched : List Char) : List Char :=
  if rule.accepts matched then rule.marker.toList else matched

/-- The text that a rule leaves, after a character. -/
def clean (uni : Unicode) (prev : Option Char) (rule : Rule) (s : List Char) : List Char :=
  sub rule.replace (rule.pattern uni) prev s

/-- `_sample_hash` -/
def sampleHash (rule : Rule) (matched : List Char) : String :=
  textSha256 ("agent-colab/document-redaction/v1" ++ rule.name ++ "|" ++ String.ofList matched)

/-- One rule: a text in which nothing is accepted stays as it is. -/
def apply (uni : Unicode) (state : List Char × List RedactionCount) (rule : Rule) :
    List Char × List RedactionCount :=
  match (Regex.findall (rule.pattern uni) state.1).filter rule.accepts with
  | [] => state
  | first :: rest =>
    (rule.clean uni none state.1,
      state.2 ++ [⟨rule.name, (first :: rest).length, rule.sampleHash first⟩])

end Rule

/-- `redact` -/
def redact (uni : Unicode) : Redaction := fun markdown ↦
  let state := Rule.all.foldl (Rule.apply uni) (markdown.toList, [])
  (String.ofList state.1, state.2)

/-! ## Characters of a match -/

variable {uni : Unicode} {rule : Rule}

/-- The characters that no pattern has in a class. -/
def isBarrier (c : Char) : Bool := c = '#' || c = '('

variable {c : Char} {m s v : List Char} {prev : Option Char}

theorem Rule.barrier (uni : Unicode) (rule : Rule) (h : isBarrier c = true) :
    (rule.pattern uni).avoids c = true ∧ (rule.pattern uni).mayStart c = false ∧
      (rule.pattern uni).uses c = false := by
  rw [isBarrier, Bool.or_eq_true, decide_eq_true_iff, decide_eq_true_iff] at h
  rcases h with rfl | rfl
  · cases rule <;> exact ⟨rfl, rfl, rfl⟩
  · cases rule <;> exact ⟨rfl, rfl, rfl⟩

theorem Rule.mayStart_space (uni : Unicode) (rule : Rule) :
    (rule.pattern uni).mayStart ' ' = false := by
  cases rule <;> rfl

theorem Rule.mayEnd_lineBreak (uni : Unicode) (rule : Rule) (h : isLineBreak c = true) :
    (rule.pattern uni).mayEnd c = false := by
  have hall : (lineBreaks.all fun c ↦ !(rule.pattern uni).mayEnd c) = true := by cases rule <;> rfl
  have := List.all_eq_true.1 hall c (of_decide_eq_true h)
  rwa [Bool.not_eq_true'] at this

/-! ## What replaces a match -/

/-- A text that is neither the beginning of a heading nor the end of a line. -/
structure Inert (t : List Char) : Prop where
  head : ∃ c cs, t = c :: cs ∧ c ≠ ' '
  hash : '#' ∉ t
  last : ∀ c, t.getLast? = some c → isLineBreak c = false

theorem Rule.inert_marker (rule : Rule) : Inert rule.marker.toList := by
  cases rule <;>
  exact ⟨⟨_, _, rfl, by decide⟩, by decide, fun c hc ↦ by
    obtain rfl : ']' = c := Option.some.inj hc
    rfl⟩

/-- **What replaces a match is inert**: the marker, and a match that is left as it is. -/
theorem Rule.inert_replace (hne : m ≠ []) (hm : (rule.pattern uni).Spells m) :
    Inert (rule.replace m) := by
  rw [Rule.replace]
  split
  · exact rule.inert_marker
  · constructor
    · obtain ⟨c, cs, rfl⟩ := exists_cons_of_ne_nil hne
      refine ⟨c, cs, rfl, ?_⟩
      rintro rfl
      exact Bool.false_ne_true ((rule.mayStart_space uni).symm.trans hm.mayStart)
    · intro hhash
      have hbarrier : isBarrier '#' = true := rfl
      exact Bool.false_ne_true ((rule.barrier uni hbarrier).2.2.symm.trans (hm.uses hhash))
    · intro c hc
      obtain ⟨m, rfl⟩ := List.getLast?_eq_some_iff.1 hc
      by_contra hbreak
      have hend := rule.mayEnd_lineBreak uni (Bool.eq_true_of_not_eq_false hbreak)
      exact Bool.false_ne_true (hend.symm.trans hm.mayEnd)

/-! ## Headings are not made -/

theorem headless_inert {t : List Char} (hne : t ≠ []) (hhash : '#' ∉ t)
    (hlast : ∀ c, t.getLast? = some c → isLineBreak c = false) (hv : headless false v = true) :
    ∀ {start : Bool}, headless start (t ++ v) = true := by
  induction t with
  | nil => exact absurd rfl hne
  | cons c t ih =>
    intro start
    have hc : isHeading (c :: (t ++ v)) = false := by
      by_contra hheading
      obtain ⟨w, hw⟩ := isHeading_iff.1 (Bool.eq_true_of_not_eq_false hheading)
      obtain ⟨rfl, -⟩ := List.cons.inj hw
      exact hhash mem_cons_self
    refine headless_cons.2 ⟨fun _ ↦ hc, ?_⟩
    cases t with
    | nil => rwa [hlast c rfl]
    | cons =>
      refine ih (cons_ne_nil _ _) (fun h ↦ hhash (mem_cons_of_mem _ h)) fun e he ↦ ?_
      exact hlast e (by rw [List.getLast?_cons_cons]; exact he)

theorem headless_drop (hne : m ≠ []) : ∀ {start : Bool},
    headless start (m ++ v) = true → headless false v = true := by
  induction m with
  | nil => exact absurd rfl hne
  | cons c m ih =>
    intro start h
    rw [cons_append, headless_cons] at h
    cases m with
    | nil =>
      rw [nil_append] at h
      cases hbreak : isLineBreak c with
      | false =>
        rw [hbreak] at h
        exact h.2
      | true =>
        rw [hbreak] at h
        exact headless_of_headless h.2
    | cons => exact ih (cons_ne_nil _ _) h.2

variable {r : Regex} {f : List Char → List Char}

theorem scanned_char (hf : ∀ m, m ≠ [] → r.Spells m → Inert (f m)) {ps : List Piece}
    (h : r.Scanned prev s ps) (hout : ps.flatMap (Piece.replaced f) = c :: v)
    (hc : c = '#' ∨ c = ' ') :
    ∃ s' ps', s = c :: s' ∧ r.Scanned (some c) s' ps' ∧ ps'.flatMap (Piece.replaced f) = v := by
  cases h with
  | nil => cases hout
  | char _ h =>
    obtain ⟨rfl, rfl⟩ := List.cons.inj hout
    exact ⟨_, _, rfl, h, rfl⟩
  | @matched _ m _ _ hne hm =>
    have hinert := hf m hne hm
    obtain ⟨d, t, ht, hspace⟩ := hinert.head
    rw [flatMap_cons, Piece.replaced, ht] at hout
    obtain ⟨rfl, -⟩ := List.cons.inj hout
    rcases hc with rfl | rfl
    · exact absurd (ht ▸ mem_cons_self) hinert.hash
    · exact absurd rfl hspace

/-- **Replacing matches by inert texts makes no heading.** -/
theorem headless_sub (hf : ∀ m, m ≠ [] → r.Spells m → Inert (f m)) :
    ∀ {start : Bool}, headless start s = true → headless start (sub f r prev s) = true := by
  have hscanned := scanned r prev s
  rw [sub]
  generalize scan r 0 prev s = ps at hscanned
  induction hscanned with
  | nil => exact fun _ ↦ rfl
  | @char _ c cs ps _ h ih =>
    intro start hs
    rw [headless_cons] at hs
    refine headless_cons.2 ⟨fun hstart ↦ ?_, ih hs.2⟩
    by_contra hheading
    obtain ⟨v, hv⟩ := isHeading_iff.1 (Bool.eq_true_of_not_eq_false hheading)
    obtain ⟨rfl, hout⟩ := List.cons.inj hv
    -- the three characters of the heading were there before
    obtain ⟨cs, ps, rfl, h₂, hout⟩ := scanned_char hf h hout (.inl rfl)
    obtain ⟨cs, ps, rfl, -, -⟩ := scanned_char hf h₂ hout (.inr rfl)
    rw [isHeading_iff.2 ⟨cs, rfl⟩] at hs
    cases hs.1 hstart
  | @matched _ m _ _ hne hm h ih =>
    intro start hs
    have hinert := hf m hne hm
    have hne' : f m ≠ [] := by
      obtain ⟨c, t, ht, -⟩ := hinert.head
      rw [ht]
      exact cons_ne_nil _ _
    exact headless_inert hne' hinert.hash hinert.last (ih (headless_drop hne hs))

/-! ## All rules -/

/-- What all rules leave of a text that comes after a character. -/
def cleaned (uni : Unicode) (prev : Option Char) (s : List Char) : List Char :=
  Rule.all.foldl (fun s rule ↦ rule.clean uni prev s) s

theorem Rule.clean_of_none {prev : Option Char} {s : List Char}
    (h : ∀ m ∈ (scan (rule.pattern uni) 0 prev s).filterMap (fun
      | .char _ => none
      | .matched m => some m), rule.accepts m = false) : rule.clean uni prev s = s := by
  have hscanned := scanned (rule.pattern uni) prev s
  rw [Rule.clean, sub]
  revert h
  generalize scan (rule.pattern uni) 0 prev s = ps at hscanned
  induction hscanned with
  | nil => exact fun _ ↦ rfl
  | @char _ c _ _ _ h ih => exact fun hall ↦ congrArg (c :: ·) (ih hall)
  | @matched _ m _ _ _ hm h ih =>
    intro hall
    have hm := hall m mem_cons_self
    rw [flatMap_cons, ih fun m' hm' ↦ hall m' (mem_cons_of_mem _ hm'),
      Piece.replaced, Rule.replace, if_neg (by rw [hm]; exact Bool.false_ne_true)]

theorem Rule.apply_fst (uni : Unicode) (rule : Rule) (state : List Char × List RedactionCount) :
    (rule.apply uni state).1 = rule.clean uni none state.1 := by
  rw [Rule.apply]
  split
  · rename_i hnone
    refine (Rule.clean_of_none fun m hm ↦ ?_).symm
    have := filter_eq_nil_iff.1 hnone m hm
    exact Bool.eq_false_iff.2 this
  · rfl

theorem redact_fst (markdown : String) :
    (redact uni markdown).1.toList = cleaned uni none markdown.toList := by
  rw [redact, cleaned, String.toList_ofList]
  generalize ([] : List RedactionCount) = counts
  generalize markdown.toList = s
  induction Rule.all generalizing s counts with
  | nil => rfl
  | cons rule _ ih =>
    rw [foldl_cons, foldl_cons, ← rule.apply_fst uni (s, counts)]
    exact ih _ _

theorem cleaned_keeps {P : List Char → Prop}
    (h : ∀ (rule : Rule) s, P s → P (rule.clean uni prev s)) (hs : P s) :
    P (cleaned uni prev s) := by
  rw [cleaned]
  induction Rule.all generalizing s with
  | nil => exact hs
  | cons rule _ ih => exact ih (h rule s hs)

theorem headless_cleaned {start : Bool} (h : headless start s = true) :
    headless start (cleaned uni prev s) = true :=
  cleaned_keeps (P := fun s ↦ headless start s = true)
    (fun _ _ hs ↦ headless_sub (fun _ hne hm ↦ Rule.inert_replace hne hm) hs) h

theorem cleaned_concat (h : s.getLast? = some '\n') : (cleaned uni prev s).getLast? = some '\n' :=
  cleaned_keeps (P := fun s ↦ s.getLast? = some '\n')
    (fun rule _ hs ↦ Regex.sub_concat (rule.mayEnd_lineBreak uni rfl) hs) h

theorem cleaned_cons (uni : Unicode) (hc : isBarrier c = true) (prev : Option Char)
    (u v : List Char) :
    cleaned uni prev (u ++ c :: v) = cleaned uni prev u ++ c :: cleaned uni (some c) v := by
  rw [cleaned, cleaned, cleaned]
  induction Rule.all generalizing u v with
  | nil => rfl
  | cons rule _ ih =>
    have hrule := rule.barrier uni hc
    have hclean : rule.clean uni prev (u ++ c :: v) =
        rule.clean uni prev u ++ c :: rule.clean uni (some c) v :=
      Regex.sub_append hrule.1 hrule.2.1 u v prev
    rw [foldl_cons, foldl_cons, foldl_cons, hclean, ih]

/-- **A text is redacted piece by piece** where a number sign or a parenthesis stands. -/
theorem cleaned_append (uni : Unicode) (hc : isBarrier c = true) (prev : Option Char)
    (u v : List Char) :
    cleaned uni prev (u ++ c :: v) = cleaned uni prev u ++ cleaned uni none (c :: v) := by
  have hnil : cleaned uni none [] = [] := by
    rw [cleaned]
    induction Rule.all with
    | nil => rfl
    | cons _ _ ih => exact ih
  have hv := cleaned_cons uni hc none [] v
  rw [hnil, nil_append, nil_append] at hv
  rw [cleaned_cons uni hc, hv]

/-! ## The lines of the headings -/

def headingLine (key : SectionKey) : List Char := '#' :: '#' :: ' ' :: key.heading.toList

theorem Rule.clean_headingLine (key : SectionKey) (v : List Char) :
    rule.clean uni none (headingLine key ++ '\n' :: v) =
      headingLine key ++ '\n' :: rule.clean uni (some '\n') v := by
  have hline : rule.clean uni none (headingLine key) = headingLine key := by
    cases rule <;> cases key <;> rfl
  have happend (havoids : (rule.pattern uni).avoids '\n' = true)
      (hstart : (rule.pattern uni).mayStart '\n' = false) :
      rule.clean uni none (headingLine key ++ '\n' :: v) =
        headingLine key ++ '\n' :: rule.clean uni (some '\n') v := by
    have := Regex.sub_append (f := rule.replace) havoids hstart (headingLine key) v none
    exact this.trans (congrArg (· ++ _) hline)
  cases rule with
  | canary | email | card | token => exact happend rfl rfl
  | phone =>
    -- a gap may be a line feed, but a phone number starts with a plus sign
    have hplus : ∀ c ∈ headingLine key ++ ['\n'], (Rule.phone.pattern uni).mayStart c = false := by
      have hall : ((headingLine key ++ ['\n']).all fun c ↦
          !(Rule.phone.pattern uni).mayStart c) = true := by
        cases key <;> rfl
      intro c hc
      have := List.all_eq_true.1 hall c hc
      rwa [Bool.not_eq_true'] at this
    have := Regex.sub_of_not_mayStart (f := Rule.phone.replace) hplus none v
    rw [append_assoc, append_assoc, Regex.after_append] at this
    exact this

theorem cleaned_headingLine (key : SectionKey) (v : List Char) :
    cleaned uni none (headingLine key ++ '\n' :: v) =
      headingLine key ++ '\n' :: cleaned uni (some '\n') v := by
  rw [cleaned, cleaned]
  induction Rule.all generalizing v with
  | nil => rfl
  | cons _ _ ih => rw [foldl_cons, foldl_cons, Rule.clean_headingLine, ih]

end AgentColab.Documents
