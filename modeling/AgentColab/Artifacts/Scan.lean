import AgentColab.Artifacts.Quarantine
import Mathlib.Data.List.Infix

/-!
# The signature scanner

`SignatureScanner.report` keeps from one read to the next as many bytes as the longest marker can
have in front of its last one. What has been read then has a marker just when some window of the
scan has one.
-/

namespace AgentColab.Artifacts

open List

theorem infix_append_iff {m a b : List α} {n : ℕ} (hm : ¬m <:+: a) (hn : m.length ≤ n + 1) :
    m <:+: a ++ b ↔ m <:+: a.drop (a.length - n) ++ b := by
  rw [← drop_append_of_le_length (Nat.sub_le _ _)]
  constructor
  · rintro ⟨p, q, h⟩
    have hlt : a.length < (p ++ m).length := by
      by_contra hle
      have hp : p ++ m <+: a := prefix_of_prefix_length_le ⟨q, h⟩ ⟨b, rfl⟩ (not_lt.mp hle)
      exact hm ((infix_append' p m []).trans (by simpa using hp.isInfix))
    have hk : a.length - n ≤ p.length := by simp only [length_append] at hlt; omega
    refine ⟨p.drop (a.length - n), q, ?_⟩
    rw [← h, append_assoc, append_assoc, drop_append_of_le_length hk]
  · exact fun h ↦ h.trans (drop_suffix _ _).isInfix

/-- `SIGNATURES` -/
def SIGNATURES : List (String × Bytes) :=
  [("EICAR-Test-File",
      "X5O!P%@AP[4\\PZX54(P^)7CC)7\x7d$EICAR-STANDARD-ANTIVIRUS-TEST-FILE!$H+H*".toUTF8.toList),
    ("Colab-Test-Malware", "COLAB-MALWARE-FIXTURE-DO-NOT-EXECUTE".toUTF8.toList),
    ("Suspicious-ELF-Dropper", [127, 69, 76, 70, 2, 1, 1, 0] ++ "dropper".toUTF8.toList)]

/-- The names and their markers, in the order of the `dict`. -/
structure SignatureScanner where
  signatures : List (String × Bytes)

namespace SignatureScanner

/-- `__init__` -/
def new (signatures : List (String × Bytes)) : SignatureScanner :=
  ⟨if signatures = [] then SIGNATURES else signatures⟩

/-- `_overlap`. It is `-1` in the source when all markers are empty, but these are found in the
first window. -/
def overlap (s : SignatureScanner) : ℕ := ((s.signatures.map (·.2.length)).max?.getD 1) - 1

/-- The loop of `report` over what the calls of `read` give: bytes, none at the end of the file, or
an `OSError` by its name. -/
def reportFrom (s : SignatureScanner) (tail : Bytes) : List (Except String Bytes) → ScanReport
  | [] | .ok [] :: _ => ⟨.clean, none, none⟩
  | .error name :: _ => ⟨.error, some "ARTIFACT_SCAN_UNAVAILABLE", some name⟩
  | .ok chunk :: reads =>
    let window := tail ++ chunk
    match s.signatures.find? fun x ↦ decide (x.2 <:+: window) with
    | some (name, _) => ⟨.infected, some "ARTIFACT_MALWARE", some name⟩
    | none => s.reportFrom (window.drop (window.length - s.overlap)) reads

/-- `report` -/
def report (s : SignatureScanner) (reads : List (Except String Bytes)) : ScanReport :=
  s.reportFrom [] reads

theorem length_le_overlap {s : SignatureScanner} (hx : x ∈ s.signatures) :
    x.2.length ≤ s.overlap + 1 := by
  have hmem : x.2.length ∈ s.signatures.map (·.2.length) := List.mem_map_of_mem hx
  obtain ⟨k, hk⟩ := Option.isSome_iff_exists.mp (isSome_max?_of_mem hmem)
  have hle : x.2.length ≤ k := (List.max?_le_iff hk).mp le_rfl _ hmem
  rw [overlap, hk, Option.getD_some]
  omega

theorem reportFrom_infected_iff (s : SignatureScanner) {chunks : List Bytes}
    (hc : ∀ c ∈ chunks, c ≠ []) (seen : Bytes) (hseen : ∀ x ∈ s.signatures, ¬x.2 <:+: seen) :
    (s.reportFrom (seen.drop (seen.length - s.overlap)) (chunks.map .ok)).verdict = .infected ↔
      ∃ x ∈ s.signatures, x.2 <:+: seen ++ chunks.flatten := by
  induction chunks generalizing seen with
  | nil =>
    simp only [map_nil, reportFrom, flatten_nil, append_nil]
    exact ⟨nofun, fun ⟨x, hx, h⟩ ↦ (hseen x hx h).elim⟩
  | cons chunk chunks ih =>
    have hwindow (x) (hx : x ∈ s.signatures) : x.2 <:+: seen ++ chunk ↔
        x.2 <:+: seen.drop (seen.length - s.overlap) ++ chunk :=
      infix_append_iff (hseen x hx) (length_le_overlap hx)
    obtain ⟨b, bs, rfl⟩ := exists_cons_of_ne_nil (hc chunk mem_cons_self)
    simp only [map_cons, reportFrom]
    cases hf : s.signatures.find? fun x ↦
      decide (x.2 <:+: seen.drop (seen.length - s.overlap) ++ b :: bs) with
    | some x =>
      have hx := mem_of_find?_eq_some hf
      have hin := (hwindow x hx).mpr (by simpa using List.find?_some hf)
      refine ⟨fun _ ↦ ⟨x, hx, ?_⟩, fun _ ↦ rfl⟩
      rw [flatten_cons, ← append_assoc]
      exact hin.trans (prefix_append _ _).isInfix
    | none =>
      have hnone : ∀ x ∈ s.signatures, ¬x.2 <:+: seen ++ b :: bs := fun x hx h ↦ by
        simpa using List.find?_eq_none.mp hf x hx (by simpa using (hwindow x hx).mp h)
      have h := ih (fun c hmem ↦ hc c (mem_cons_of_mem _ hmem)) _ hnone
      rw [flatten_cons, ← append_assoc, ← h]
      -- the end of the window is the end of all that has been seen, with the new bytes
      rw [← drop_append_of_le_length (Nat.sub_le _ _), drop_drop]
      rw [show seen.length - s.overlap + (List.length (List.drop (seen.length - s.overlap)
        (seen ++ b :: bs)) - s.overlap) = (seen ++ b :: bs).length - s.overlap by
          simp only [length_drop, length_append]; omega]

end SignatureScanner

open SignatureScanner in
/-- **The scan of the chunks finds what a search of the whole content finds.** -/
theorem report_infected_iff {signatures : List (String × Bytes)} (hne : signatures ≠ [])
    (hmarkers : ∀ x ∈ signatures, x.2 ≠ []) {content : Bytes} {chunks : List Bytes}
    (hchunks : ∀ c ∈ chunks, c ≠ []) (hcontent : chunks.flatten = content) :
    ((new signatures).report (chunks.map .ok)).verdict = .infected ↔
      ∃ x ∈ signatures, x.2 <:+: content := by
  have hs : (new signatures).signatures = signatures := if_neg hne
  have h := reportFrom_infected_iff (new signatures) hchunks [] fun x hx hin ↦
    hmarkers x (hs ▸ hx) (infix_nil.mp hin)
  rw [hs, drop_nil, nil_append, hcontent] at h
  exact h

theorem report_infected_iff_straddling : ((SignatureScanner.new [("marker", [1, 2, 3])]).report
      ([[0, 1], [2], [3, 4]].map .ok)).verdict = .infected ↔
      ∃ x ∈ ([("marker", [1, 2, 3])] : List (String × Bytes)), x.2 <:+: [0, 1, 2, 3, 4] :=
  @report_infected_iff [("marker", [1, 2, 3])] (by simp) (by simp) _ [[0, 1], [2], [3, 4]]
    (by simp) rfl

end AgentColab.Artifacts
