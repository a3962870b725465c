import AgentColab.Documents.Redaction
import Mathlib.Data.List.DropRight

/-!
# A document is its sections

A rendered document is a header and the texts of the sections in their order, and each text begins
with the line of its heading. So it is redacted section by section, and its headings are those of
the sections as long as no text adds one.
-/

namespace AgentColab.Documents

open List
open String (toList_append ofList toList_ofList)

/-- Lines, each with its line feed. -/
def unlines (lines : List String) : List Char := lines.flatMap fun line ↦ line.toList ++ ['\n']

theorem unlines_append (a b : List String) : unlines (a ++ b) = unlines a ++ unlines b :=
  flatMap_append

theorem toList_intercalate (lines : List String) :
    ("\n".intercalate (lines ++ [""])).toList = unlines lines := by
  induction lines with
  | nil => rfl
  | cons line lines ih =>
    have hsplit : "\n".intercalate (line :: (lines ++ [""])) =
        line ++ "\n" ++ "\n".intercalate (lines ++ [""]) := by
      cases lines with
      | nil => exact String.intercalate_cons_cons
      | cons => exact String.intercalate_cons_cons
    rw [cons_append, hsplit, toList_append, toList_append, ih]
    rfl

/-- The last line is neither empty nor does it end with white space. -/
def EndsPlain (line : String) : Prop := ∃ c, line.toList.getLast? = some c ∧ isSpace c = false

variable {line title : String} {lines : List String} {sections : SectionKey → List String}
    {g : SectionKey → List Char}

theorem rstrip_of_endsPlain (h : EndsPlain line) : rstrip line = line := by
  obtain ⟨c, hc, hspace⟩ := h
  obtain ⟨cs, hcs⟩ := List.getLast?_eq_some_iff.1 hc
  rw [rstrip, hcs, reverse_append, reverse_singleton, singleton_append,
    dropWhile_cons_of_neg (by rw [hspace]; exact Bool.false_ne_true), reverse_cons,
    reverse_reverse, ← hcs, String.ofList_toList]

theorem rstripNewlines_unlines (h : EndsPlain line) :
    (rstripNewlines (ofList (unlines (lines ++ [line]))) ++ "\n").toList =
      unlines (lines ++ [line]) := by
  obtain ⟨c, hc, hspace⟩ := h
  obtain ⟨cs, hcs⟩ := List.getLast?_eq_some_iff.1 hc
  have hstop : (c :: (unlines lines ++ cs).reverse).dropWhile (· = '\n') =
      c :: (unlines lines ++ cs).reverse := by
    refine dropWhile_cons_of_neg fun h ↦ ?_
    rw [of_decide_eq_true h] at hspace
    exact absurd hspace (by decide)
  have hunlines : unlines (lines ++ [line]) = (unlines lines ++ cs ++ [c]) ++ ['\n'] := by
    rw [unlines_append, unlines, unlines, flatMap_cons, flatMap_nil, append_nil, hcs]
    simp only [append_assoc]
  rw [toList_append, rstripNewlines, toList_ofList, toList_ofList, hunlines,
    reverse_append, reverse_singleton, singleton_append,
    dropWhile_cons_of_pos (by decide), reverse_append, reverse_singleton,
    singleton_append, hstop, reverse_cons, reverse_reverse]
  rfl

/-! ## The texts of the sections -/

/-- The lines of a section but for the blank one at its end. -/
def bodyLines (entries : List String) (key : SectionKey) : List String :=
  ["## " ++ key.heading, ""] ++ if entries = [] then [emptyMarker] else entries.map rstrip

/-- The text of a section. The last one has no blank line at its end. -/
def sectionText (entries : List String) (key : SectionKey) : List Char :=
  unlines (if key = .provenance then bodyLines entries key else sectionLines entries key)

def headerText (title : String) : List Char := unlines ["# " ++ title, ""]

/-- **A document is its header and its sections.** -/
theorem toList_render (hlast : sections .provenance = lines ++ [line]) (hline : EndsPlain line) :
    (render title sections).toList =
      headerText title ++ sectionKeys.flatMap fun key ↦ sectionText (sections key) key := by
  have hkeys : sectionKeys = sectionKeys.dropLast ++ [.provenance] := rfl
  have hentries : sections .provenance ≠ [] := by
    rw [hlast]
    exact append_ne_nil_of_right_ne_nil _ (cons_ne_nil _ _)
  -- the lines but for the blank one at the end
  set front := ["# " ++ title, ""] ++
    (sectionKeys.dropLast.flatMap fun key ↦ sectionLines (sections key) key) ++
    (["## " ++ SectionKey.provenance.heading, ""] ++ lines.map rstrip) with hfront
  have hbody : bodyLines (sections .provenance) .provenance =
      ["## " ++ SectionKey.provenance.heading, ""] ++ lines.map rstrip ++ [line] := by
    rw [bodyLines, if_neg hentries, hlast, map_append, map_singleton,
      rstrip_of_endsPlain hline, append_assoc]
  have hall : (["# " ++ title, ""] ++ sectionKeys.flatMap fun key ↦
      sectionLines (sections key) key) = (front ++ [line]) ++ [""] := by
    have hsection : sectionLines (sections .provenance) .provenance =
        bodyLines (sections .provenance) .provenance ++ [""] := rfl
    rw [hkeys, flatMap_append, flatMap_singleton, hsection, hbody, hfront]
    simp only [append_assoc]
  have htexts : (sectionKeys.flatMap fun key ↦ sectionText (sections key) key) =
      unlines (sectionKeys.dropLast.flatMap fun key ↦ sectionLines (sections key) key) ++
        unlines (bodyLines (sections .provenance) .provenance) := by
    have hfirst : ∀ key ∈ sectionKeys.dropLast, key ≠ .provenance := by decide
    have hfront : (sectionKeys.dropLast.flatMap fun key ↦ sectionText (sections key) key) =
        unlines (sectionKeys.dropLast.flatMap fun key ↦ sectionLines (sections key) key) := by
      rw [unlines, flatMap_assoc]
      refine flatMap_congr fun key hkey ↦ ?_
      rw [sectionText, if_neg (hfirst key hkey), unlines]
    rw [hkeys, flatMap_append, flatMap_singleton, ← hkeys, hfront]
    rfl
  have hjoined : "\n".intercalate (front ++ [line] ++ [""]) =
      ofList (unlines (front ++ [line])) := by
    rw [← toList_intercalate, String.ofList_toList]
  rw [render, hall, hjoined, rstripNewlines_unlines hline, htexts, hbody, headerText,
    ← unlines_append, ← unlines_append, hfront]
  simp only [append_assoc]

/-- The lines of a section after that of its heading. -/
def restLines (entries : List String) (key : SectionKey) : List String :=
  "" :: (if entries = [] then [emptyMarker] else entries.map rstrip) ++
    if key = .provenance then [] else [""]

theorem sectionText_eq (entries : List String) (key : SectionKey) :
    sectionText entries key = headingLine key ++ '\n' :: unlines (restLines entries key) := by
  have hheading : ("## " ++ key.heading).toList = headingLine key := toList_append
  have hline (lines : List String) : unlines (("## " ++ key.heading) :: lines) =
      headingLine key ++ '\n' :: unlines lines := by
    rw [unlines, flatMap_cons, hheading, append_assoc]
    rfl
  rw [sectionText, restLines]
  split_ifs with hkey hentries hentries
  · rw [bodyLines, if_pos hentries]
    exact hline _
  · rw [bodyLines, if_neg hentries, append_nil]
    exact hline _
  · rw [sectionLines, if_pos hentries]
    exact hline _
  · rw [sectionLines, if_neg hentries]
    exact hline _

variable {uni : Unicode}

theorem cleaned_flatMap (hg : ∀ key, ∃ v, g key = '#' :: v) (keys : List SectionKey)
    (prev : Option Char) (u : List Char) : cleaned uni prev (u ++ keys.flatMap g) =
      cleaned uni prev u ++ keys.flatMap fun key ↦ cleaned uni none (g key) := by
  induction keys generalizing prev u with
  | nil => rw [flatMap_nil, flatMap_nil, append_nil, append_nil]
  | cons key keys ih =>
    obtain ⟨v, hv⟩ := hg key
    have hhead := cleaned_append uni (c := '#') rfl prev u (v ++ keys.flatMap g)
    rw [← cons_append, ← hv, ih none (g key)] at hhead
    rw [flatMap_cons, flatMap_cons, hhead]

theorem cleaned_render (hlast : sections .provenance = lines ++ [line]) (hline : EndsPlain line) :
    cleaned uni none (render title sections).toList = cleaned uni none (headerText title) ++
      sectionKeys.flatMap fun key ↦ cleaned uni none (sectionText (sections key) key) := by
  rw [toList_render hlast hline]
  refine cleaned_flatMap (fun key ↦ ?_) _ _ _
  rw [sectionText_eq]
  exact ⟨_, rfl⟩

/-! ## Headings -/

theorem getLast?_unlines (lines : List String) (line : String) :
    (unlines (lines ++ [line])).getLast? = some '\n' := by
  rw [unlines_append, unlines, unlines, flatMap_cons, flatMap_nil, append_nil,
    ← append_assoc, List.getLast?_concat]

theorem headless_unlines (h : ∀ line ∈ lines, headless true line.toList = true) :
    headless true (unlines lines) = true := by
  induction lines with
  | nil => rfl
  | cons line _ ih =>
    have hrest := ih fun l hl ↦ h l (mem_cons_of_mem _ hl)
    have := headless_newline (h line mem_cons_self) hrest
    rwa [unlines, flatMap_cons, append_assoc]

theorem headless_rstrip (h : headless true line.toList = true) :
    headless true (rstrip line).toList = true := by
  obtain ⟨v, hv⟩ := rdropWhile_prefix isSpace (l := line.toList)
  rw [← hv] at h
  rw [rstrip, toList_ofList]
  exact headless_of_append h

theorem headingsOf_line {l : List Char} (hl : isHeading l = true)
    (hbreak : ∀ c ∈ l, isLineBreak c = false) (v : List Char) :
    headingsOf (l ++ '\n' :: v) = strip (ofList (l.drop 3)) :: headingsOf v := by
  rw [headingsOf, headingsOf, splitlines_line hbreak, filter_cons_of_pos hl, map_cons]

/-- **A section has its heading and no other** as long as no entry adds one. -/
theorem headingsOf_sectionText {entries : List String}
    (h : ∀ entry ∈ entries, headless true entry.toList = true) (key : SectionKey) :
    headingsOf (cleaned uni none (sectionText entries key)) = [key.heading] := by
  have hrest : headless true (unlines (restLines entries key)) = true := by
    refine headless_unlines fun line hline ↦ ?_
    rw [restLines] at hline
    rcases mem_append.1 hline with hline | hline
    · rcases mem_cons.1 hline with rfl | hline
      · rfl
      · split_ifs at hline
        · obtain rfl := mem_singleton.1 hline
          rfl
        · obtain ⟨entry, hentry, rfl⟩ := List.mem_map.1 hline
          exact headless_rstrip (h entry hentry)
    · split_ifs at hline
      · exact absurd hline not_mem_nil
      · obtain rfl := mem_singleton.1 hline
        rfl
  have hbreak : ∀ c ∈ headingLine key, isLineBreak c = false := by
    have hall : ((headingLine key).all fun c ↦ !isLineBreak c) = true := by cases key <;> rfl
    intro c hc
    simpa using List.all_eq_true.1 hall c hc
  have hname : strip (ofList ((headingLine key).drop 3)) = key.heading := by cases key <;> decide
  have hheading : isHeading (headingLine key) = true := isHeading_iff.2 ⟨_, rfl⟩
  rw [sectionText_eq, cleaned_headingLine, headingsOf_line hheading hbreak,
    headingsOf_eq_nil (headless_cleaned hrest), hname]

theorem headingsOf_headerText (h : headless false title.toList = true) :
    headingsOf (cleaned uni none (headerText title)) = [] := by
  refine headingsOf_eq_nil (headless_cleaned ?_)
  have htext : headerText title = '#' :: ' ' :: (title.toList ++ '\n' :: ['\n']) := by
    have hline : ("# " ++ title).toList = '#' :: ' ' :: title.toList := toList_append
    rw [headerText, unlines, flatMap_cons, hline]
    simp
  rw [htext]
  refine headless_cons.2 ⟨fun _ ↦ rfl, headless_cons.2 ⟨fun _ ↦ rfl, ?_⟩⟩
  exact headless_newline h rfl

theorem getLast?_sectionText (entries : List String) (key : SectionKey) :
    (sectionText entries key).getLast? = some '\n' := by
  rw [sectionText]
  split_ifs
  · rw [bodyLines]
    split_ifs
    · exact getLast?_unlines _ _
    · rename_i hentries
      obtain ⟨front, last, hsplit⟩ : ∃ front last, entries = front ++ [last] := by
        rcases eq_nil_or_concat entries with hnil | ⟨front, last, hlast⟩
        · exact absurd hnil hentries
        · exact ⟨front, last, by rw [hlast, concat_eq_append]⟩
      rw [hsplit, map_append, map_singleton, ← append_assoc]
      exact getLast?_unlines _ _
  · exact getLast?_unlines _ _

theorem headingsOf_flatMap (hg : ∀ key, (g key).getLast? = some '\n') (keys : List SectionKey)
    {w : List Char} (hw : w.getLast? = some '\n') : headingsOf (w ++ keys.flatMap g) =
      headingsOf w ++ keys.flatMap fun key ↦ headingsOf (g key) := by
  induction keys generalizing w with
  | nil => rw [flatMap_nil, flatMap_nil, append_nil, append_nil]
  | cons key _ ih =>
    rw [flatMap_cons, flatMap_cons, headingsOf_append _ hw, ih (hg key)]

theorem headingsOf_sections (hlast : sections .provenance = lines ++ [line])
    (hline : EndsPlain line) : headingsOf (cleaned uni none (render title sections).toList) =
      headingsOf (cleaned uni none (headerText title)) ++ sectionKeys.flatMap fun key ↦
        headingsOf (cleaned uni none (sectionText (sections key) key)) := by
  have hheader : (cleaned uni none (headerText title)).getLast? = some '\n' :=
    cleaned_concat (getLast?_unlines ["# " ++ title] "")
  rw [cleaned_render hlast hline]
  exact headingsOf_flatMap (fun key ↦ cleaned_concat (getLast?_sectionText _ key)) _ hheader

/-- **The headings of a document** are the mandatory ones, in their order, as long as no text adds
one. -/
theorem headingsOf_render (hlast : sections .provenance = lines ++ [line]) (hline : EndsPlain line)
    (htitle : headless false title.toList = true)
    (hentries : ∀ key, ∀ entry ∈ sections key, headless true entry.toList = true) :
    headingsOf (cleaned uni none (render title sections).toList) =
      sectionKeys.map SectionKey.heading := by
  rw [headingsOf_sections hlast hline, headingsOf_headerText htitle, nil_append]
  have hsections : (sectionKeys.flatMap fun key ↦
      headingsOf (cleaned uni none (sectionText (sections key) key))) =
      sectionKeys.flatMap fun key ↦ [key.heading] :=
    flatMap_congr fun key _ ↦ headingsOf_sectionText (hentries key) key
  rw [hsections]
  rfl

/-! ## The digest of the body -/

def checksumLine (bodySha : String) : String :=
  "- Body SHA-256 (all sections above this line): " ++ bodySha

theorem toList_checksumLine (sha : String) : (checksumLine sha).toList =
    "- Body SHA-256 (all sections above this line): ".toList ++ sha.toList :=
  toList_append

theorem getLast?_textSha256 (text : String) :
    ∃ n, (textSha256 text).toList.getLast? = some (Nat.digitChar (n % 16)) := by
  have hword (x : ℕ) :
      ∃ cs, Sha256.hexWord x = cs ++ [Nat.digitChar ((x >>> (4 * (7 - 7))) % 16)] := by
    rw [Sha256.hexWord, range_succ, map_append]
    exact ⟨_, rfl⟩
  obtain ⟨cs, hcs⟩ := hword (Sha256.digest (text.toUTF8.toList.map UInt8.toNat)).h
  have hlast : ∃ front, (textSha256 text).toList = front ++ [Nat.digitChar
      (((Sha256.digest (text.toUTF8.toList.map UInt8.toNat)).h >>> (4 * (7 - 7))) % 16)] := by
    rw [textSha256, Sha256.hexDigest, toList_ofList]
    simp only [flatMap_cons, flatMap_nil, append_nil, hcs, ← append_assoc]
    exact ⟨_, rfl⟩
  obtain ⟨front, hfront⟩ := hlast
  exact ⟨_, by rw [hfront, List.getLast?_concat]⟩

theorem endsPlain_checksumLine (text : String) : EndsPlain (checksumLine (textSha256 text)) := by
  have hdigit : ∀ d < 16, isSpace (Nat.digitChar d) = false := by decide
  obtain ⟨n, hn⟩ := getLast?_textSha256 text
  generalize textSha256 text = sha at hn
  have hlast : (checksumLine sha).toList.getLast? = some (Nat.digitChar (n % 16)) := by
    rw [toList_checksumLine, List.getLast?_append, hn]
    exact Option.some_or
  exact ⟨_, hlast, hdigit (n % 16) (Nat.mod_lt _ (by decide))⟩

theorem headless_of_not_mem {t : List Char} (h : '#' ∉ t) : ∀ {start : Bool},
    headless start t = true := by
  induction t with
  | nil => exact fun {_} ↦ rfl
  | cons c t ih =>
    intro start
    refine headless_cons.2 ⟨fun _ ↦ ?_, ih fun hmem ↦ h (mem_cons_of_mem _ hmem)⟩
    by_contra hheading
    obtain ⟨v, hv⟩ := isHeading_iff.1 (Bool.eq_true_of_not_eq_false hheading)
    obtain ⟨rfl, -⟩ := List.cons.inj hv
    exact h mem_cons_self

theorem headless_checksumLine (text : String) :
    headless true (checksumLine (textSha256 text)).toList = true := by
  refine headless_of_not_mem fun hmem ↦ ?_
  rw [toList_checksumLine] at hmem
  rcases mem_append.1 hmem with hmem | hmem
  · revert hmem
    decide
  · have hdigit : ∀ d < 16, Nat.digitChar d ≠ '#' := by decide
    rw [textSha256, Sha256.hexDigest, toList_ofList] at hmem
    obtain ⟨word, -, hword⟩ := mem_flatMap.1 hmem
    obtain ⟨i, -, hi⟩ := List.mem_map.1 hword
    exact hdigit _ (Nat.mod_lt _ (by decide)) hi

theorem cleaned_checksum (hne : lines ≠ []) {sha : String} (hsha : EndsPlain (checksumLine sha)) :
    cleaned uni none (sectionText (lines ++ [checksumLine sha]) .provenance) =
      cleaned uni none (sectionText lines .provenance ++ "- Body SHA-256 ".toList) ++
        cleaned uni none ("(all sections above this line): ".toList ++ sha.toList ++ ['\n']) := by
  have hlines : lines ++ [checksumLine sha] ≠ [] := append_ne_nil_of_left_ne_nil hne _
  have hline : (checksumLine sha).toList = "- Body SHA-256 ".toList ++
      ("(all sections above this line): ".toList ++ sha.toList) := by
    rw [toList_checksumLine, ← append_assoc]
    exact congrArg (· ++ sha.toList) (by decide)
  have htext : sectionText (lines ++ [checksumLine sha]) .provenance =
      (sectionText lines .provenance ++ "- Body SHA-256 ".toList) ++
        ("(all sections above this line): ".toList ++ sha.toList ++ ['\n']) := by
    rw [sectionText, sectionText, if_pos rfl, if_pos rfl, bodyLines, bodyLines, if_neg hlines,
      if_neg hne, map_append, map_singleton, rstrip_of_endsPlain hsha,
      ← append_assoc, unlines_append]
    conv_lhs => enter [2]; rw [unlines, flatMap_cons, flatMap_nil, hline]
    simp only [append_assoc, append_nil]
  have hopen : "(all sections above this line): ".toList =
      '(' :: "all sections above this line): ".toList := by decide
  rw [htext, hopen]
  exact cleaned_append uni rfl none _ _

end AgentColab.Documents
