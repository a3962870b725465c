import AgentColab.Documents.Redaction
import Mathlib.Data.List.TakeWhile

/-!
# The narrative

A narrative is linted paragraph by paragraph: each cites something, each citation is known, and no
figure contradicts one of the skeleton. Its citations are those of its paragraphs, since no citation
has white space in it (`findall_joined`).
-/

namespace AgentColab.Documents

open List

open Regex (literal oneOf)

/-! ## Citations -/

/-- `REF_TYPES` -/
def refTypes : List String := ["evt", "art", "dec", "vr", "run", "msg"]

/-- `CITATION` -/
def citation : Regex :=
  Rule.inOrder [literal ['[', '['], oneOf (refTypes.map String.toList), .char (· = ':'),
    .rep (.char fun c ↦ !(c = ']' || isSpace c)) 1 none, literal [']', ']']]

abbrev Ref := String × String

/-- The groups of a match: the type is what comes before the first colon. -/
def refOf (matched : List Char) : Ref :=
  let inner := (matched.drop 2).dropLast.dropLast
  (String.ofList (inner.takeWhile (· ≠ ':')), String.ofList ((inner.dropWhile (· ≠ ':')).drop 1))

/-- `CITATION.findall(text)` -/
def citationsOf (text : List Char) : List Ref := (Regex.findall citation text).map refOf

/-- `citations_in`: the first occurrences. -/
def citationsIn (markdown : List Char) : List Ref := (citationsOf markdown).reverse.dedup.reverse

variable {ref : Ref} {c : Char} {body s w : List Char} {ls : List (List Char)} {index : ℕ}

theorem mem_citationsIn {markdown : List Char} :
    ref ∈ citationsIn markdown ↔ ref ∈ citationsOf markdown := by
  rw [citationsIn, mem_reverse, mem_dedup, mem_reverse]

/-! ## Paragraphs -/

/-- `\n\s*\n` -/
def blankLine : Regex :=
  Rule.inOrder [.char (· = '\n'), .rep (.char isSpace) 0 none, .char (· = '\n')]

def between : List Regex.Piece → List (List Char)
  | [] => [[]]
  | .char c :: ps =>
    match between ps with
    | [] => [[c]]
    | l :: ls => (c :: l) :: ls
  | .matched _ :: ps => [] :: between ps

/-- `re.split(pattern, text)` -/
def splitAt (r : Regex) (s : List Char) : List (List Char) := between (r.scan 0 none s)

/-- `paragraphs_of` -/
def paragraphsOf (body : List Char) : List (List Char) :=
  ((splitAt blankLine (stripChars isSpace body)).map (stripChars isSpace)).filter (· ≠ [])

/-! ## Figures -/

/-- `FACT_ALIASES` -/
def factAliases : List (String × List String) :=
  [("event_count", ["events", "event"]), ("artifact_count", ["artifacts", "artifact"]),
    ("finding_count", ["findings", "finding"]), ("cost_units", ["cost_units", "cost units"]),
    ("input_tokens", ["input tokens"]), ("output_tokens", ["output tokens"]),
    ("tool_calls", ["tool calls"])]

/-- `[\d,]` -/
def isFigure (c : Char) : Bool := isDecimal c || c = ','

/-- `_NUMBER` -/
def number : Regex := .seq (.char isDecimal) (.rep (.char isFigure) 0 none)

def numberBefore (uni : Unicode) (name : String) : Regex :=
  Rule.inOrder [number, .rep (.char isSpace) 1 none, literal name.toList, .boundary uni.word]

def numberAfter (uni : Unicode) (name : String) : Regex :=
  Rule.inOrder [literal name.toList, .rep (.char isSpace) 0 none,
    .rep (oneOf [['i', 's'], ['w', 'a', 's'], ['='], [':']]) 0 (some 1),
    .rep (.char isSpace) 0 none, number, .boundary uni.word]

/-- `int(raw.replace(",", ""))` -/
def figureValue (raw : List Char) : ℕ :=
  (raw.filter (· ≠ ',')).foldl (fun value c ↦ 10 * value + ((decimalZeros.find? fun first ↦
    first ≤ c.toNat && c.toNat < first + 10).map (c.toNat - ·)).getD 0) 0

/-- The figures that a paragraph attributes to an alias: what is captured is all of the match up to
the white space, or all of it from the first digit on. -/
def figuresOf (uni : Unicode) (name : String) (lowered : List Char) : List ℕ :=
  (Regex.findall (numberBefore uni name) lowered).map (fun m ↦
      figureValue (m.takeWhile isFigure)) ++
    (Regex.findall (numberAfter uni name) lowered).map fun m ↦
      figureValue (m.dropWhile fun c ↦ !isDecimal c)

/-- `_contradictions` -/
def contradictions (uni : Unicode) (paragraph : List Char) (facts : List (String × ℤ)) :
    List String :=
  let lowered := (uni.lower (String.ofList paragraph)).toList
  factAliases.flatMap fun (fact, aliases) ↦
    match facts.lookup fact with
    | none => []
    | some known => aliases.flatMap fun name ↦
        ((figuresOf uni name lowered).filter fun value ↦ (value : ℤ) ≠ known).map fun value ↦
          fact ++ ": narrative says " ++ toString value ++ ", skeleton says " ++ toString known

/-! ## The linter -/

structure LintError where
  reasonCode : String
  detail : String
  paragraph : ℕ

structure LintResult where
  errors : List LintError := []
  citations : List Ref := []

/-- `LintResult.ok` -/
def LintResult.ok (result : LintResult) : Bool := result.errors = []

/-- `LintResult.reason_code` -/
def LintResult.reasonCode (result : LintResult) : Option String :=
  result.errors.head?.map LintError.reasonCode

def LintResult.cite (known : List Ref) (index : ℕ) (result : LintResult) (ref : Ref) : LintResult :=
  if ref ∉ known then
    { result with errors := result.errors ++
        [⟨"NARRATIVE_CITATION_UNKNOWN", ref.1 ++ ":" ++ ref.2 ++ " is not in the freeze", index⟩] }
  else if ref ∉ result.citations then { result with citations := result.citations ++ [ref] }
  else result

def LintResult.paragraph (uni : Unicode) (known : List Ref) (facts : List (String × ℤ))
    (result : LintResult) (para : List Char × ℕ) : LintResult :=
  let cites := citationsOf para.1
  let missing := if cites = [] then [⟨"NARRATIVE_CITATION_MISSING",
    "paragraph " ++ toString (para.2 + 1) ++ " cites no source", para.2⟩] else []
  let cited := cites.foldl (LintResult.cite known para.2)
    { result with errors := result.errors ++ missing }
  { cited with errors := cited.errors ++ (contradictions uni para.1 facts).map fun detail ↦
      ⟨"NARRATIVE_CONTRADICTS_SKELETON", detail, para.2⟩ }

/-- `lint` -/
def lint (uni : Unicode) (body : List Char) (known : List Ref) (facts : List (String × ℤ)) :
    LintResult :=
  (paragraphsOf body).zipIdx.foldl (LintResult.paragraph uni known facts) {}

/-! ## Generating -/

/-- What a built document says for its narrative: the text, the references and the figures of its
manifest. -/
structure Built where
  markdown : String
  refs : List Ref
  facts : List (String × ℤ)

inductive Answer where
  | raises
  | declines
  | draft (body : String)

inductive NarrativeStatus where
  | accepted
  | rejected
  | declined
  | unavailable
deriving DecidableEq

structure NarrativeOutcome where
  status : NarrativeStatus
  body : String := ""
  reasonCode : Option String := none
  citations : List Ref := []

/-- `known_refs` of `_narrative_for`: what the manifest lists, and what the text cites. -/
def Built.knownRefs (built : Built) : List Ref :=
  built.refs ++ citationsIn built.markdown.toList

/-- `generate`, asked by `_narrative_for`. Without a provider or an agent there is no answer. -/
def generate (uni : Unicode) (built : Built) (answer : Option Answer) : NarrativeOutcome :=
  match answer with
  | none => { status := .unavailable, reasonCode := some "NARRATIVE_NO_AGENT_AVAILABLE" }
  | some .raises | some .declines =>
    { status := .declined, reasonCode := some "NARRATIVE_AGENT_DECLINED" }
  | some (.draft body) =>
    if stripChars isSpace body.toList = [] then
      { status := .declined, reasonCode := some "NARRATIVE_AGENT_DECLINED" }
    else
      let result := lint uni body.toList built.knownRefs built.facts
      if result.ok then
        { status := .accepted
          body := strip body
          citations := result.citations }
      else
        { status := .rejected
          reasonCode := result.reasonCode
          citations := result.citations }

/-! ## No citation is cut -/

variable {uni : Unicode}

theorem ne_of_isSpace {d : Char} (hc : isSpace c = true) (hd : isSpace d = false) : c ≠ d := by
  rintro rfl
  rw [hc] at hd
  cases hd

theorem citation_space (hc : isSpace c = true) :
    citation.avoids c = true ∧ citation.mayStart c = false := by
  have hne : ∀ d ∈ ['[', ':', ']', 'e', 'v', 't', 'a', 'r', 'd', 'c', 'u', 'n', 'm', 's', 'g'],
      decide (c = d) = false := by
    have hall : (['[', ':', ']', 'e', 'v', 't', 'a', 'r', 'd', 'c', 'u', 'n', 'm', 's', 'g'].all
        fun d ↦ !isSpace d) = true := rfl
    intro d hd
    exact decide_eq_false (ne_of_isSpace hc (Bool.not_eq_true' _ ▸ List.all_eq_true.1 hall d hd))
  simp only [forall_mem_cons] at hne
  obtain ⟨h₁, h₂, h₃, h₄, h₅, h₆, h₇, h₈, h₉, h₁₀, h₁₁, h₁₂, h₁₃, h₁₄, h₁₅, -⟩ := hne
  constructor
  · simp [citation, Rule.inOrder, refTypes, literal, oneOf, Regex.avoids, Regex.mayEmpty, *]
  · simp [citation, Rule.inOrder, refTypes, literal, oneOf, Regex.mayStart, Regex.mayEmpty, h₁]

theorem citationsOf_cut (hc : isSpace c = true) (u v : List Char) :
    citationsOf (u ++ c :: v) = citationsOf u ++ citationsOf v := by
  have hcut := citation_space hc
  rw [citationsOf, Regex.findall_cut rfl hcut.1 hcut.2, map_append]
  rfl

theorem citationsOf_spaces_append (hw : ∀ c ∈ w, isSpace c = true) (v : List Char) :
    citationsOf (w ++ v) = citationsOf v := by
  induction w with
  | nil => rfl
  | cons c w ih =>
    have := citationsOf_cut (hw c mem_cons_self) [] (w ++ v)
    exact this.trans (ih fun d hd ↦ hw d (mem_cons_of_mem _ hd))

theorem citationsOf_append_spaces (hw : ∀ c ∈ w, isSpace c = true) (u : List Char) :
    citationsOf (u ++ w) = citationsOf u := by
  cases w with
  | nil => rw [append_nil]
  | cons c =>
    have hrest := citationsOf_spaces_append (fun d hd ↦ hw d (mem_cons_of_mem _ hd)) []
    rw [append_nil] at hrest
    rw [citationsOf_cut (hw c mem_cons_self), hrest]
    exact append_nil _

theorem citationsOf_stripChars (s : List Char) :
    citationsOf (stripChars isSpace s) = citationsOf s := by
  have hfront : citationsOf (s.dropWhile isSpace) = citationsOf s := by
    conv_rhs => rw [← takeWhile_append_dropWhile (p := isSpace) (l := s)]
    exact (citationsOf_spaces_append (fun c hc ↦ mem_takeWhile_imp hc) _).symm
  rw [stripChars, ← hfront]
  generalize s.dropWhile isSpace = t
  have hsplit := takeWhile_append_dropWhile (p := isSpace) (l := t.reverse)
  have hback := congrArg List.reverse hsplit
  rw [reverse_append, reverse_reverse] at hback
  conv_rhs => rw [← hback]
  exact (citationsOf_append_spaces (fun c hc ↦ mem_takeWhile_imp (mem_reverse.1 hc)) _).symm

/-- Texts with white space between them. -/
inductive Joined : List (List Char) → List Char → Prop
  | one (l : List Char) : Joined [l] l
  | cons (l : List Char) {w s : List Char} {ls : List (List Char)} (hne : w ≠ [])
      (hw : ∀ c ∈ w, isSpace c = true) (h : Joined ls s) : Joined (l :: ls) (l ++ w ++ s)

theorem Joined.citations (h : Joined ls s) : citationsOf s = ls.flatMap citationsOf := by
  induction h with
  | one => rw [flatMap_cons, flatMap_nil, append_nil]
  | @cons l w s _ hne hw h ih =>
    obtain ⟨c, w, rfl⟩ := exists_cons_of_ne_nil hne
    rw [append_assoc, cons_append, citationsOf_cut (hw c mem_cons_self),
      citationsOf_spaces_append (fun d hd ↦ hw d (mem_cons_of_mem _ hd)), ih, flatMap_cons]

theorem Joined.cons_char {l : List Char} (h : Joined (l :: ls) s) :
    Joined ((c :: l) :: ls) (c :: s) := by
  cases h with
  | one => exact .one _
  | cons _ hne hw h => exact .cons (c :: l) hne hw h

theorem joined_between {prev : Option Char} {ps : List Regex.Piece}
    (h : blankLine.Scanned prev s ps) : ∃ l ls, between ps = l :: ls ∧ Joined (l :: ls) s := by
  induction h with
  | nil => exact ⟨[], [], rfl, .one _⟩
  | @char _ c _ _ _ h ih =>
    obtain ⟨l, ls, hbetween, hjoined⟩ := ih
    refine ⟨c :: l, ls, ?_, hjoined.cons_char⟩
    rw [between, hbetween]
  | @matched _ m _ _ hne hm h ih =>
    obtain ⟨l, ls, hbetween, hjoined⟩ := ih
    refine ⟨[], l :: ls, by rw [between, hbetween], .cons [] hne (fun c hc ↦ ?_) hjoined⟩
    have huses := hm.uses hc
    simp only [blankLine, Rule.inOrder, Regex.uses, Bool.or_eq_true, decide_eq_true_iff] at huses
    rcases huses with rfl | hspace | rfl
    · rfl
    · exact hspace
    · rfl

/-- **Every citation of the body is one of a paragraph.** -/
theorem exists_paragraph (h : ref ∈ citationsOf (stripChars isSpace body)) :
    ∃ para ∈ paragraphsOf body, ref ∈ citationsOf para := by
  obtain ⟨l, ls, hbetween, hjoined⟩ :=
    joined_between (Regex.scanned blankLine none (stripChars isSpace body))
  rw [hjoined.citations, ← hbetween] at h
  obtain ⟨part, hpart, href⟩ := mem_flatMap.1 h
  rw [← citationsOf_stripChars] at href
  refine ⟨stripChars isSpace part, mem_filter.2 ⟨List.mem_map_of_mem hpart, ?_⟩, href⟩
  refine decide_eq_true fun hnil ↦ ?_
  rw [hnil] at href
  exact absurd href not_mem_nil

/-! ## What is accepted -/

variable {known : List Ref} {facts : List (String × ℤ)}

variable {result : LintResult}

theorem LintResult.cite_errors (h : (result.cite known index ref).errors = []) :
    result.errors = [] ∧ ref ∈ known := by
  rw [cite] at h
  split_ifs at h with hknown hcited
  · exact ⟨h, hknown⟩
  · exact ⟨h, hknown⟩
  · exact absurd h (append_ne_nil_of_right_ne_nil _ (cons_ne_nil _ _))

theorem LintResult.foldl_errors {α : Type} (step : LintResult → α → LintResult) {P : α → Prop}
    (hstep : ∀ result a, (step result a).errors = [] → result.errors = [] ∧ P a) {l : List α} :
    ∀ {result : LintResult}, (l.foldl step result).errors = [] →
      result.errors = [] ∧ ∀ a ∈ l, P a := by
  induction l with
  | nil => exact fun h ↦ ⟨h, fun _ ha ↦ absurd ha not_mem_nil⟩
  | cons _ _ ih =>
    intro result h
    obtain ⟨hfirst, hrest⟩ := ih h
    obtain ⟨hresult, ha⟩ := hstep _ _ hfirst
    exact ⟨hresult, forall_mem_cons.2 ⟨ha, hrest⟩⟩

theorem LintResult.paragraph_errors {para : List Char × ℕ}
    (h : (result.paragraph uni known facts para).errors = []) :
    result.errors = [] ∧ ∀ ref ∈ citationsOf para.1, ref ∈ known := by
  obtain ⟨hcited, -⟩ := append_eq_nil_iff.1 h
  obtain ⟨hresult, hrefs⟩ := LintResult.foldl_errors (LintResult.cite known _)
    (fun _ _ ↦ LintResult.cite_errors) hcited
  exact ⟨(append_eq_nil_iff.1 hresult).1, hrefs⟩

theorem lint_known (h : (lint uni body known facts).ok = true)
    (href : ref ∈ citationsOf (stripChars isSpace body)) : ref ∈ known := by
  obtain ⟨para, hpara, href⟩ := exists_paragraph href
  obtain ⟨n, hn, rfl⟩ := mem_iff_getElem.1 hpara
  have herrors := (LintResult.foldl_errors (LintResult.paragraph uni known facts)
    (fun _ _ ↦ LintResult.paragraph_errors) (of_decide_eq_true h)).2
  refine herrors ((paragraphsOf body)[n], n) ?_ ref href
  exact mk_mem_zipIdx_iff_getElem?.2 (List.getElem?_eq_getElem hn)

/-- **The citations of an accepted narrative** are in the manifest or in the text of the
skeleton. -/
theorem generate_accepted {built : Built} {answer : Option Answer}
    (h : (generate uni built answer).status = .accepted)
    (href : ref ∈ citationsIn (generate uni built answer).body.toList) :
    ref ∈ built.refs ∨ ref ∈ citationsIn built.markdown.toList := by
  revert h href
  rw [generate.eq_def]
  split
  · exact fun h ↦ nomatch h
  · exact fun h ↦ nomatch h
  · exact fun h ↦ nomatch h
  · rename_i body
    split_ifs with hempty
    · exact fun h ↦ nomatch h
    · dsimp only
      split_ifs with hok
      · intro _ href
        rw [mem_citationsIn] at href
        have hbody : (strip body).toList = stripChars isSpace body.toList := String.toList_ofList
        rw [hbody] at href
        exact mem_append.1 (lint_known hok href)
      · exact fun h ↦ nomatch h

end AgentColab.Documents
