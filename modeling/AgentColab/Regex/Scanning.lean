import AgentColab.Regex.Matching

/-!
# Scanning a text

A text is scanned from the left: where the pattern matches, the preferred match is a piece and the
scan goes on after it; a character where it does not match is a piece of its own. An empty match
counts as none. Finding and replacing are read off the pieces.
-/

namespace AgentColab

open List
namespace Regex

inductive Piece where
  | char (c : Char)
  | matched (m : List Char)

/-- The length of the preferred match, `0` without one. -/
def matchLength (r : Regex) (x : Place) : ℕ :=
  match ways r x with
  | [] => 0
  | y :: _ => x.rest.length - y.rest.length

/-- The pieces of a text. The first `skip` characters belong to the last match. -/
def scan (r : Regex) : ℕ → Option Char → List Char → List Piece
  | _, _, [] => []
  | skip + 1, _, c :: cs => scan r skip (some c) cs
  | 0, prev, c :: cs =>
    match matchLength r ⟨prev, c :: cs⟩ with
    | 0 => .char c :: scan r 0 (some c) cs
    | n + 1 => .matched ((c :: cs).take (n + 1)) :: scan r n (some c) cs

/-- `pattern.findall(text)` -/
def findall (r : Regex) (s : List Char) : List (List Char) :=
  (scan r 0 none s).filterMap fun
    | .char _ => none
    | .matched m => some m

def Piece.replaced (f : List Char → List Char) : Piece → List Char
  | char c => [c]
  | matched m => f m

/-- `pattern.sub(f, text)`, of a text that comes after a character. -/
def sub (f : List Char → List Char) (r : Regex) (prev : Option Char) (s : List Char) : List Char :=
  (scan r 0 prev s).flatMap (Piece.replaced f)

variable {r : Regex} {f : List Char → List Char}

variable {n : ℕ} {c : Char} {prev : Option Char} {cs : List Char}

theorem matchLength_spells {x : Place} (h : matchLength r x = n + 1) :
    n + 1 ≤ x.rest.length ∧ r.Spells (x.rest.take (n + 1)) := by
  rw [matchLength] at h
  split at h
  · cases h
  · rename_i y ys hways
    obtain ⟨m, hx, -, hm⟩ := ways_reads r (hways ▸ mem_cons_self : y ∈ ways r x)
    have hlen : m.length = n + 1 := by
      rw [hx, length_append] at h
      omega
    rw [hx, ← hlen, take_left, length_append]
    exact ⟨by omega, hm⟩

theorem matchLength_eq_zero (h : r.mayStart c = false) (prev : Option Char) (cs : List Char) :
    matchLength r ⟨prev, c :: cs⟩ = 0 := by
  cases hn : matchLength r ⟨prev, c :: cs⟩ with
  | zero => rfl
  | succ =>
    have hspells := (matchLength_spells hn).2
    rw [take_succ_cons] at hspells
    rw [hspells.mayStart] at h
    cases h

theorem scan_nil (skip : ℕ) (prev : Option Char) : scan r skip prev [] = [] := by cases skip <;> rfl

theorem scan_skip (m : List Char) (prev : Option Char) (cs : List Char) :
    scan r m.length prev (m ++ cs) = scan r 0 (after prev m) cs := by
  induction m generalizing prev with
  | nil => rfl
  | cons c m ih =>
    rw [cons_append, after_cons, length_cons, scan]
    exact ih (some c)

theorem scan_char (h : matchLength r ⟨prev, c :: cs⟩ = 0) :
    scan r 0 prev (c :: cs) = .char c :: scan r 0 (some c) cs := by
  rw [scan, h]

theorem scan_matched (h : matchLength r ⟨prev, c :: cs⟩ = n + 1) :
    scan r 0 prev (c :: cs) = .matched (c :: cs.take n) :: scan r n (some c) cs := by
  rw [scan, h]
  rfl

/-- The pieces of a text, one after another. -/
inductive Scanned (r : Regex) : Option Char → List Char → List Piece → Prop
  | nil (prev : Option Char) : Scanned r prev [] []
  | char {prev : Option Char} {c : Char} {cs : List Char} {ps : List Piece}
      (hnone : matchLength r ⟨prev, c :: cs⟩ = 0) (h : Scanned r (some c) cs ps) :
      Scanned r prev (c :: cs) (.char c :: ps)
  | matched {prev : Option Char} {m cs : List Char} {ps : List Piece} (hne : m ≠ [])
      (hm : r.Spells m) (h : Scanned r (after prev m) cs ps) :
      Scanned r prev (m ++ cs) (.matched m :: ps)

theorem Scanned.eq_nil {ps : List Piece} (h : Scanned r prev [] ps) : ps = [] := by
  generalize hs : ([] : List Char) = s at h
  cases h with
  | nil => rfl
  | char => cases hs
  | matched hne => exact absurd (append_eq_nil_iff.1 hs.symm).1 hne

theorem scanned (r : Regex) (prev : Option Char) (s : List Char) :
    Scanned r prev s (scan r 0 prev s) := by
  -- a match is read at once, so the induction is on the length
  induction hlen : s.length using Nat.strongRecOn generalizing prev s with
  | ind n ih =>
    cases s with
    | nil => exact .nil prev
    | cons c cs =>
      cases hn : matchLength r ⟨prev, c :: cs⟩ with
      | zero =>
        rw [scan_char hn]
        exact .char hn (ih _ (by rw [← hlen, length_cons]; omega) _ _ rfl)
      | succ k =>
        obtain ⟨hk, hspells⟩ := matchLength_spells hn
        rw [take_succ_cons] at hspells
        have hskip := scan_skip (r := r) (cs.take k) (some c) (cs.drop k)
        have hlen' : (cs.take k).length = k := by
          rw [length_take]
          exact Nat.min_eq_left (Nat.le_of_succ_le_succ hk)
        rw [hlen', take_append_drop] at hskip
        rw [scan_matched hn, hskip, ← after_cons prev]
        conv => enter [3]; rw [← take_append_drop k cs]
        refine .matched (cons_ne_nil _ _) hspells (ih _ ?_ _ _ rfl)
        rw [length_drop, ← hlen, length_cons]
        omega

/-! ## Cutting a text -/

theorem matchLength_append (h : r.avoids c = true) (v : List Char) (x : Place) :
    matchLength r (x.append (c :: v)) = matchLength r x := by
  rw [matchLength, ways_append h, matchLength]
  cases ways r x with
  | nil => rfl
  | cons y =>
    change (x.rest ++ c :: v).length - (y.rest ++ c :: v).length = x.rest.length - y.rest.length
    rw [length_append, length_append, Nat.add_sub_add_right]

/-- **A text is cut before a character that the pattern avoids.** -/
theorem scan_append (havoids : r.avoids c = true) (hstart : r.mayStart c = false) (v : List Char) :
    ∀ (u : List Char) (skip : ℕ) (prev : Option Char), skip ≤ u.length →
    scan r skip prev (u ++ c :: v) = scan r skip prev u ++ .char c :: scan r 0 (some c) v := by
  intro u
  induction u with
  | nil =>
    intro skip prev hskip
    obtain rfl := Nat.le_zero.1 hskip
    exact scan_char (matchLength_eq_zero hstart prev v)
  | cons d u ih =>
    intro skip prev hskip
    cases skip with
    | succ k => exact ih k (some d) (Nat.le_of_succ_le_succ hskip)
    | zero =>
      have hlength := matchLength_append havoids v ⟨prev, d :: u⟩
      change matchLength r ⟨prev, d :: (u ++ c :: v)⟩ = _ at hlength
      cases hn : matchLength r ⟨prev, d :: u⟩ with
      | zero =>
        rw [cons_append, scan_char (hlength.trans hn), scan_char hn,
          ih 0 (some d) (Nat.zero_le _), cons_append]
      | succ k =>
        have hk : k ≤ u.length := Nat.le_of_succ_le_succ (matchLength_spells hn).1
        rw [cons_append, scan_matched (hlength.trans hn), scan_matched hn,
          ih k (some d) hk, take_append_of_le_length hk, cons_append]

theorem sub_append (havoids : r.avoids c = true) (hstart : r.mayStart c = false) (u v : List Char)
    (prev : Option Char) :
    sub f r prev (u ++ c :: v) = sub f r prev u ++ c :: sub f r (some c) v := by
  rw [sub, scan_append havoids hstart v u 0 prev (Nat.zero_le _), flatMap_append]
  rfl

theorem findall_append (havoids : r.avoids c = true) (hstart : r.mayStart c = false)
    (u v : List Char) : findall r (u ++ c :: v) = findall r u ++ (scan r 0 (some c) v).filterMap fun
      | .char _ => none
      | .matched m => some m := by
  rw [findall, scan_append havoids hstart v u 0 none (Nat.zero_le _), filterMap_append]
  rfl

theorem sub_of_not_mayStart {w : List Char} (h : ∀ c ∈ w, r.mayStart c = false)
    (prev : Option Char) (v : List Char) :
    sub f r prev (w ++ v) = w ++ sub f r (after prev w) v := by
  induction w generalizing prev with
  | nil => rfl
  | cons c w ih =>
    have hc := matchLength_eq_zero (h c mem_cons_self) prev (w ++ v)
    rw [cons_append, sub, scan_char hc, flatMap_cons, after_cons]
    exact congrArg (c :: ·) (ih (fun d hd ↦ h d (mem_cons_of_mem _ hd)) (some c))

theorem sub_concat (h : r.mayEnd c = false) {s : List Char} (hs : s.getLast? = some c) :
    (sub f r prev s).getLast? = some c := by
  have hscanned := scanned r prev s
  rw [sub]
  revert hs
  generalize scan r 0 prev s = ps at hscanned
  induction hscanned with
  | nil => exact fun hs ↦ absurd hs (by simp)
  | @char _ d cs _ _ hps ih =>
    intro hs
    cases cs with
    | nil =>
      rw [hps.eq_nil]
      exact hs
    | cons =>
      rw [List.getLast?_cons_cons] at hs
      rw [flatMap_cons, List.getLast?_append, ih hs]
      rfl
  | @matched _ m cs _ _ hm _ ih =>
    intro hs
    rcases eq_nil_or_concat cs with rfl | ⟨cs, e, rfl⟩
    · rw [append_nil] at hs
      obtain ⟨m, rfl⟩ := List.getLast?_eq_some_iff.1 hs
      rw [hm.mayEnd] at h
      cases h
    · rw [concat_eq_append, List.getLast?_append_of_ne_nil _ (by simp)] at hs
      rw [concat_eq_append] at ih
      rw [flatMap_cons, List.getLast?_append, ih hs]
      rfl

/-! ## Looking behind -/

theorem matchLength_fresh (h : r.forgets = true) (x : Place) :
    matchLength r x = matchLength r x.fresh := by
  have hways := congrArg List.head? (ways_fresh h x)
  rw [List.head?_map, List.head?_map] at hways
  rw [matchLength, matchLength]
  cases hx : ways r x with
  | nil =>
    cases hy : ways r x.fresh with
    | nil => rfl
    | cons =>
      rw [hx, hy] at hways
      cases hways
  | cons y =>
    cases hy : ways r x.fresh with
    | nil =>
      rw [hx, hy] at hways
      cases hways
    | cons z =>
      rw [hx, hy] at hways
      have hrest : y.rest = z.rest := Option.some.inj hways
      change x.rest.length - y.rest.length = x.rest.length - z.rest.length
      rw [hrest]

theorem scan_fresh (h : r.forgets = true) (s : List Char) : ∀ (skip : ℕ) (prev : Option Char),
    scan r skip prev s = scan r skip none s := by
  induction s with
  | nil => exact fun skip prev ↦ by rw [scan_nil, scan_nil]
  | cons c s =>
    intro skip prev
    cases skip with
    | succ => rfl
    | zero =>
      have hlength := matchLength_fresh h ⟨prev, c :: s⟩
      change _ = matchLength r ⟨none, c :: s⟩ at hlength
      cases hn : matchLength r ⟨none, c :: s⟩ with
      | zero => rw [scan_char (hlength.trans hn), scan_char hn]
      | succ => rw [scan_matched (hlength.trans hn), scan_matched hn]

/-- **Finding is done piece by piece** where a character stands that the pattern avoids. -/
theorem findall_cut (hforgets : r.forgets = true) (havoids : r.avoids c = true)
    (hstart : r.mayStart c = false) (u v : List Char) :
    findall r (u ++ c :: v) = findall r u ++ findall r v := by
  rw [findall_append havoids hstart, scan_fresh hforgets]
  rfl

end Regex
end AgentColab
