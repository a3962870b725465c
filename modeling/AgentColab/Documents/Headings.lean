import AgentColab.Documents.Skeleton

/-!
# Lines and headings

A heading is a line that begins with `## `, and a line is what `str.splitlines` calls one: ten
characters end a line, and a carriage return together with a line feed ends it once. A text adds no
heading exactly where none of its lines begins so.
-/

namespace AgentColab.Documents

open List Option

/-! ## Lines -/

/-- The characters that end a line for `str.splitlines`. -/
def lineBreaks : List Char :=
  ['\n', '\x0b', '\x0c', '\r', '\x1c', '\x1d', '\x1e', '\u0085', '\u2028', '\u2029']

def isLineBreak (c : Char) : Bool := c ∈ lineBreaks

/-- The characters of `str.splitlines()`, line by line. -/
def splitlines : List Char → List (List Char)
  | [] => []
  | c :: cs =>
    if c = '\r' ∧ cs.head? = some '\n' then splitlines cs
    else if isLineBreak c then [] :: splitlines cs
    else match splitlines cs with
      | [] => [[c]]
      | l :: ls => (c :: l) :: ls

/-- `line.startswith("## ")` -/
def isHeading (line : List Char) : Bool := ['#', '#', ' '].isPrefixOf line

/-- `headings_of` -/
def headingsOf (markdown : List Char) : List String :=
  ((splitlines markdown).filter isHeading).map fun line ↦ strip (String.ofList (line.drop 3))

variable {cs l u v w : List Char} {start : Bool}

theorem isHeading_iff : isHeading cs = true ↔ ∃ v, cs = '#' :: '#' :: ' ' :: v := by
  rw [isHeading, isPrefixOf_iff_prefix]
  constructor
  · rintro ⟨v, rfl⟩
    exact ⟨v, rfl⟩
  · rintro ⟨v, rfl⟩
    exact ⟨v, rfl⟩

theorem splitlines_ne_nil : ∀ {cs : List Char}, cs ≠ [] → splitlines cs ≠ [] := by
  intro cs
  induction cs with
  | nil => exact fun h ↦ absurd rfl h
  | cons c _ ih =>
    intro _
    rw [splitlines]
    split_ifs with hreturn hbreak
    · refine ih ?_
      rintro rfl
      cases hreturn.2
    · exact cons_ne_nil _ _
    · split
      · exact cons_ne_nil _ _
      · exact cons_ne_nil _ _

theorem splitlines_append (v : List Char) (h : w.getLast? = some '\n') :
    splitlines (w ++ v) = splitlines w ++ splitlines v := by
  induction w with
  | nil => cases h
  | cons c w ih =>
    cases w with
    | nil =>
      obtain rfl : c = '\n' := some.inj h
      rfl
    | cons d w =>
      rw [List.getLast?_cons_cons] at h
      have hhead : ((d :: w) ++ v).head? = (d :: w).head? := rfl
      rw [cons_append, splitlines, splitlines, hhead, ih h]
      split_ifs
      · rfl
      · rfl
      · cases hlines : splitlines (d :: w) with
        | nil => exact absurd hlines (splitlines_ne_nil (cons_ne_nil _ _))
        | cons => rfl

theorem splitlines_line (h : ∀ c ∈ l, isLineBreak c = false) (v : List Char) :
    splitlines (l ++ '\n' :: v) = l :: splitlines v := by
  induction l with
  | nil => rfl
  | cons c l ih =>
    have hc := h c mem_cons_self
    have hreturn : ¬ (c = '\r' ∧ (l ++ '\n' :: v).head? = some '\n') := by
      rintro ⟨rfl, -⟩
      exact absurd hc (by decide)
    rw [cons_append, splitlines, if_neg hreturn, hc, ih fun d hd ↦ h d (mem_cons_of_mem _ hd)]
    rfl

theorem headingsOf_append (v : List Char) (h : w.getLast? = some '\n') :
    headingsOf (w ++ v) = headingsOf w ++ headingsOf v := by
  rw [headingsOf, splitlines_append v h, filter_append, map_append]
  rfl

/-! ## Texts that add no heading -/

/-- No line begins as a heading does. `start` says that the text begins at the start of a line. -/
def headless : Bool → List Char → Bool
  | _, [] => true
  | start, c :: cs => !(start && isHeading (c :: cs)) && headless (isLineBreak c) cs

theorem headless_cons {c : Char} : headless start (c :: cs) = true ↔
      (start = true → isHeading (c :: cs) = false) ∧ headless (isLineBreak c) cs = true := by
  rw [headless, Bool.and_eq_true, Bool.not_eq_true', Bool.and_eq_false_iff]
  cases start <;> simp

theorem headless_of_headless (h : headless true cs = true) : headless start cs = true := by
  cases cs with
  | nil => rfl
  | cons =>
    rw [headless_cons] at h ⊢
    exact ⟨fun _ ↦ h.1 rfl, h.2⟩

theorem isHeading_append (h : isHeading u = true) : isHeading (u ++ v) = true := by
  obtain ⟨w, rfl⟩ := isHeading_iff.1 h
  exact isHeading_iff.2 ⟨w ++ v, rfl⟩

theorem headless_of_append : ∀ {start : Bool},
    headless start (u ++ v) = true → headless start u = true := by
  induction u with
  | nil => exact fun _ ↦ rfl
  | cons c u ih =>
    intro start h
    rw [cons_append, headless_cons] at h
    refine headless_cons.2 ⟨fun hstart ↦ ?_, ih h.2⟩
    by_contra hheading
    have := isHeading_append (v := v) (Bool.eq_true_of_not_eq_false hheading)
    rw [cons_append, h.1 hstart] at this
    cases this

theorem isHeading_newline (u v : List Char) : isHeading (u ++ '\n' :: v) = isHeading u := by
  match u with
  | [] => rfl
  | [c] =>
    rw [isHeading, isHeading]
    simp [List.isPrefixOf]
  | [c, d] =>
    rw [isHeading, isHeading]
    simp [List.isPrefixOf]
  | c :: d :: e :: u => rfl

theorem headless_newline : ∀ {start : Bool},
    headless start u = true → headless true v = true → headless start (u ++ '\n' :: v) = true := by
  induction u with
  | nil =>
    intro start _ hv
    exact headless_cons.2 ⟨fun _ ↦ rfl, hv⟩
  | cons c u ih =>
    intro start hu hv
    rw [headless_cons] at hu
    rw [cons_append]
    refine headless_cons.2 ⟨fun hstart ↦ ?_, ih hu.2 hv⟩
    rw [← cons_append, isHeading_newline]
    exact hu.1 hstart

theorem splitlines_head (h : (splitlines cs).head? = some l) : l <+: cs := by
  induction cs generalizing l with
  | nil => cases h
  | cons c cs ih =>
    rw [splitlines] at h
    split_ifs at h with hreturn hbreak
    · -- the line that a carriage return ends is empty here
      cases cs with
      | nil => cases hreturn.2
      | cons d =>
        obtain rfl : d = '\n' := some.inj hreturn.2
        obtain rfl : [] = l := some.inj h
        exact nil_prefix
    · obtain rfl : [] = l := some.inj h
      exact nil_prefix
    · cases hlines : splitlines cs with
      | nil =>
        rw [hlines] at h
        obtain rfl : [c] = l := some.inj h
        exact ⟨cs, rfl⟩
      | cons l' =>
        rw [hlines] at h
        obtain rfl : c :: l' = l := some.inj h
        exact cons_prefix_cons.2 ⟨rfl, ih (by rw [hlines]; rfl)⟩

theorem isHeading_head (h : (splitlines cs).head? = some l) (hcs : isHeading cs = false) :
    isHeading l = false := by
  obtain ⟨v, rfl⟩ := splitlines_head h
  by_contra hl
  rw [isHeading_append (Bool.eq_true_of_not_eq_false hl)] at hcs
  cases hcs

/-- **A text none of whose lines begins as a heading has no headings.** -/
theorem headless_lines : ∀ {start : Bool}, headless start cs = true →
    (∀ l ∈ (splitlines cs).tail, isHeading l = false) ∧
      (start = true → ∀ l ∈ splitlines cs, isHeading l = false) := by
  induction cs with
  | nil => exact fun _ ↦ ⟨fun _ hl ↦ absurd hl not_mem_nil,
      fun _ _ hl ↦ absurd hl not_mem_nil⟩
  | cons c cs ih =>
    intro start h
    rw [headless_cons] at h
    -- the lines after the first are the same whatever the first begins with
    have htail : ∀ l ∈ (splitlines (c :: cs)).tail, isHeading l = false := by
      rw [splitlines]
      split_ifs with hreturn hbreak
      · exact (ih h.2).1
      · exact (ih h.2).2 hbreak
      · have := (ih h.2).1
        cases hlines : splitlines cs with
        | nil => exact fun _ hl ↦ absurd hl not_mem_nil
        | cons =>
          rw [hlines] at this
          exact this
    refine ⟨htail, fun hstart l hl ↦ ?_⟩
    cases hlines : splitlines (c :: cs) with
    | nil =>
      rw [hlines] at hl
      exact absurd hl not_mem_nil
    | cons =>
      rw [hlines] at hl htail
      rcases mem_cons.1 hl with rfl | hl
      · exact isHeading_head (by rw [hlines]; rfl) (h.1 hstart)
      · exact htail l hl

theorem headingsOf_eq_nil (h : headless true cs = true) : headingsOf cs = [] := by
  rw [headingsOf, filter_eq_nil_iff.2 fun l hl ↦ ?_]
  · rfl
  · rw [(headless_lines h).2 rfl l hl]
    exact Bool.false_ne_true

end AgentColab.Documents
