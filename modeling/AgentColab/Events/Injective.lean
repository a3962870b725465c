import AgentColab.Events.Decoding
import Mathlib.Data.List.TakeWhile

/-!
# Canonical JSON of float-free values

`json.loads` gives the numbers of a scanned text their meaning: one with a fraction or an exponent
is a float, left to `readFloat`. A dict keeps the last value of a key that is given twice.
-/

namespace AgentColab

open List Option

/-! ## `json.loads` -/

def digitsOf (l : List Char) : List Char := l.takeWhile Char.isDigit

/-- `(\.\d+)?` -/
def readFraction : List Char → List Char
  | '.' :: l => if digitsOf l = [] then [] else '.' :: digitsOf l
  | _ => []

/-- `[-+]?` -/
def readSign : List Char → List Char
  | '-' :: _ => ['-']
  | '+' :: _ => ['+']
  | _ => []

/-- `([eE][-+]?\d+)?` -/
def readExponent : List Char → List Char
  | [] => []
  | c :: l =>
    let sign := readSign l
    let digits := digitsOf (l.drop sign.length)
    if (c = 'e' ∨ c = 'E') ∧ digits ≠ [] then c :: sign ++ digits else []

/-- `0|[1-9]\d*` -/
def readInteger : List Char → List Char
  | '0' :: _ => ['0']
  | l => digitsOf l

section

variable (readFloat : List Char → PyFloat)

def decodeUnsigned (neg : Bool) (l : List Char) : Option Json :=
  let integer := readInteger l
  let fraction := readFraction (l.drop integer.length)
  let rest := fraction ++ readExponent (l.drop (integer.length + fraction.length))
  if integer = [] ∨ integer ++ rest ≠ l then none
  else if rest = [] then
    let n := Nat.ofDigitChars 10 integer 0
    some (.int (if neg then -n else n))
  else some (.float (readFloat (if neg then '-' :: l else l)))

def decodeNumber : List Char → Option Json
  | ['N', 'a', 'N'] => some (.float .nan)
  | ['I', 'n', 'f', 'i', 'n', 'i', 't', 'y'] => some (.float (.inf false))
  | ['-', 'I', 'n', 'f', 'i', 'n', 'i', 't', 'y'] => some (.float (.inf true))
  | '-' :: l => decodeUnsigned readFloat true l
  | l => decodeUnsigned readFloat false l

/-- `d[k] = v` -/
def setMember (ms : List (String × Json)) (m : String × Json) : List (String × Json) :=
  if m.1 ∈ ms.map Prod.fst then ms.map fun x ↦ if x.1 = m.1 then m else x else ms ++ [m]

/-- `dict(pairs)` -/
def dictOf (pairs : List (String × Json)) : List (String × Json) := pairs.foldl setMember []

mutual

/-- The value of a scanned text. -/
def Canon.decode : Canon → Option Json
  | .null => some .null
  | .bool b => some (.bool b)
  | .num t => decodeNumber readFloat t
  | .str s => some (.str s)
  | .arr xs => (decodeItems xs).map .arr
  | .obj ms => (decodeMembers ms).map fun ms ↦ .obj (dictOf ms)

def decodeItems : List Canon → Option (List Json)
  | [] => some []
  | x :: xs =>
    match x.decode, decodeItems xs with
    | some v, some vs => some (v :: vs)
    | _, _ => none

def decodeMembers : List (String × Canon) → Option (List (String × Json))
  | [] => some []
  | (k, x) :: ms =>
    match x.decode, decodeMembers ms with
    | some v, some vs => some ((k, v) :: vs)
    | _, _ => none

end

/-- **`json.loads`** of bytes in UTF-8. -/
def loads (bytes : List UInt8) : Option Json :=
  (String.fromUTF8? bytes.toByteArray).bind fun s ↦ (scanText s.toList).bind (·.decode readFloat)

end

/-! ## Equality up to the order of members -/

mutual

/-- Two values that are equal up to the order of the members of their dicts. -/
inductive Json.Same : Json → Json → Prop where
  | null : Json.Same .null .null
  | bool (b : Bool) : Json.Same (.bool b) (.bool b)
  | int (n : ℤ) : Json.Same (.int n) (.int n)
  | float (f : PyFloat) : Json.Same (.float f) (.float f)
  | str (s : String) : Json.Same (.str s) (.str s)
  | arr {xs ys : List Json} : SameItems xs ys → Json.Same (.arr xs) (.arr ys)
  | obj {ms ms' ns ns' : List (String × Json)} : ms.Perm ms' → ns.Perm ns' →
      SameMembers ms' ns' → Json.Same (.obj ms) (.obj ns)

inductive SameItems : List Json → List Json → Prop where
  | nil : SameItems [] []
  | cons {x y : Json} {xs ys : List Json} : Json.Same x y → SameItems xs ys →
      SameItems (x :: xs) (y :: ys)

inductive SameMembers : List (String × Json) → List (String × Json) → Prop where
  | nil : SameMembers [] []
  | cons (k : String) {v w : Json} {ms ns : List (String × Json)} : Json.Same v w →
      SameMembers ms ns → SameMembers ((k, v) :: ms) ((k, w) :: ns)

end

/-- Whether a value has no float and no dict with a key twice. -/
def Json.isPlain (v : Json) : Bool := v.All (fun _ ↦ false) fun ks ↦ decide ks.Nodup

/-- A float-free value as Python builds it: no dict has a key twice. -/
structure PlainJson where
  json : Json
  plain : json.isPlain = true

variable {xs : List Json} {ms : List (String × Json)} {n : ℕ}

theorem isPlain_arr : (Json.arr xs).isPlain = true ↔ ∀ x ∈ xs, x.isPlain = true := by
  rw [Json.isPlain, Json.All]
  induction xs with
  | nil => simp [allItems]
  | cons x _ ih => rw [allItems, Bool.and_eq_true, ih, forall_mem_cons, Json.isPlain]

theorem isPlain_obj : (Json.obj ms).isPlain = true ↔
      (ms.map Prod.fst).Nodup ∧ ∀ m ∈ ms, m.2.isPlain = true := by
  rw [Json.isPlain, Json.All, Bool.and_eq_true, decide_eq_true_eq, allMembers_eq_all,
    List.all_eq_true]
  rfl

/-! ## The same value has the same text -/

theorem sortKeys_memberTexts {ms' : List (String × Json)} (h : ms.Perm ms')
    (hnd : (ms.map Prod.fst).Nodup) : sortKeys (memberTexts ms) = sortKeys (memberTexts ms') := by
  have hperm : (memberTexts ms).Perm (memberTexts ms') := by
    rw [memberTexts_eq_map, memberTexts_eq_map]
    exact h.map _
  exact sortKeys_perm hperm (by rwa [keys_memberTexts])

mutual

theorem text_of_same : ∀ {v w : Json}, v.Same w → v.isPlain = true → w.isPlain = true →
    v.text = w.text
  | _, _, .null, _, _ => rfl
  | _, _, .bool _, _, _ => rfl
  | _, _, .int _, _, _ => rfl
  | _, _, .float _, _, _ => rfl
  | _, _, .str _, _, _ => rfl
  | _, _, .arr h, hv, hw => by
    rw [Json.text, Json.text, itemTexts_of_same h (isPlain_arr.1 hv) (isPlain_arr.1 hw)]
  | _, _, .obj hms hns h, hv, hw => by
    obtain ⟨hv, hvs⟩ := isPlain_obj.1 hv
    obtain ⟨hw, hws⟩ := isPlain_obj.1 hw
    have htexts := memberTexts_of_same h (fun m hm ↦ hvs m (hms.mem_iff.2 hm))
      fun m hm ↦ hws m (hns.mem_iff.2 hm)
    rw [Json.text, Json.text, sortKeys_memberTexts hms hv, sortKeys_memberTexts hns hw, htexts]

theorem itemTexts_of_same : ∀ {xs ys : List Json}, SameItems xs ys →
    (∀ x ∈ xs, x.isPlain = true) → (∀ y ∈ ys, y.isPlain = true) → itemTexts xs = itemTexts ys
  | _, _, .nil, _, _ => rfl
  | _, _, .cons h hs, hx, hy => by
    obtain ⟨hx, hxs⟩ := forall_mem_cons.1 hx
    obtain ⟨hy, hys⟩ := forall_mem_cons.1 hy
    rw [itemTexts, itemTexts, text_of_same h hx hy, itemTexts_of_same hs hxs hys]

theorem memberTexts_of_same : ∀ {ms ns : List (String × Json)}, SameMembers ms ns →
    (∀ m ∈ ms, m.2.isPlain = true) → (∀ n ∈ ns, n.2.isPlain = true) →
    memberTexts ms = memberTexts ns
  | _, _, .nil, _, _ => rfl
  | _, _, .cons k h hs, hm, hn => by
    obtain ⟨hm, hms⟩ := forall_mem_cons.1 hm
    obtain ⟨hn, hns⟩ := forall_mem_cons.1 hn
    rw [memberTexts, memberTexts, text_of_same h hm hn, memberTexts_of_same hs hms hns]

end

/-! ## The canonical form determines the value -/

theorem sameMembers_of_map {ns : List (String × Json)}
    (h : ms.map (fun m ↦ (m.1, m.2.canon)) = ns.map fun n ↦ (n.1, n.2.canon))
    (hsame : ∀ m ∈ ms, ∀ n ∈ ns, m.2.canon = n.2.canon → m.2.Same n.2) : SameMembers ms ns := by
  induction ms generalizing ns with
  | nil =>
    rw [map_nil, eq_comm, map_eq_nil_iff] at h
    rw [h]
    exact .nil
  | cons m _ ih =>
    cases ns with
    | nil => simp at h
    | cons n =>
      obtain ⟨k, v⟩ := m
      obtain ⟨k', w⟩ := n
      simp only [map_cons, List.cons.injEq, Prod.mk.injEq] at h
      obtain ⟨⟨rfl, hcanon⟩, hrest⟩ := h
      exact .cons k (hsame _ mem_cons_self _ mem_cons_self hcanon) (ih hrest fun m hm n hn ↦
          hsame m (mem_cons_of_mem _ hm) n (mem_cons_of_mem _ hn))

theorem sameItems_of_map {ys : List Json} (h : xs.map Json.canon = ys.map Json.canon)
    (hsame : ∀ x ∈ xs, ∀ y ∈ ys, x.canon = y.canon → x.Same y) : SameItems xs ys := by
  induction xs generalizing ys with
  | nil =>
    rw [map_nil, eq_comm, map_eq_nil_iff] at h
    rw [h]
    exact .nil
  | cons x _ ih =>
    cases ys with
    | nil => simp at h
    | cons y =>
      rw [map_cons, map_cons, List.cons.injEq] at h
      exact .cons (hsame x mem_cons_self y mem_cons_self h.1) (ih h.2 fun x' hx y' hy ↦
          hsame x' (mem_cons_of_mem x hx) y' (mem_cons_of_mem y hy))

mutual

theorem same_of_canon : ∀ v w : Json, v.isPlain = true → w.isPlain = true → v.canon = w.canon →
    v.Same w
  | .null, w, _, hw, h => by
    cases w with
    | null => exact .null
    | _ => cases h
  | .bool b, w, _, hw, h => by
    cases w with
    | bool => exact Canon.bool.inj h ▸ .bool b
    | _ => cases h
  | .int n, w, _, hw, h => by
    cases w with
    | int => exact intText_inj (Canon.num.inj h) ▸ .int n
    | float => cases hw
    | _ => cases h
  | .str s, w, _, hw, h => by
    cases w with
    | str => exact Canon.str.inj h ▸ .str s
    | _ => cases h
  | .arr xs, w, hv, hw, h => by
    cases w with
    | arr =>
      rw [Json.canon, Json.canon, canonItems_eq_map, canonItems_eq_map] at h
      exact .arr (sameItems_of_map (Canon.arr.inj h) fun x hx y hy ↦
        same_items_of_canon xs (isPlain_arr.1 hv) x hx y (isPlain_arr.1 hw y hy))
    | _ => cases h
  | .obj ms, w, hv, hw, h => by
    cases w with
    | obj ns =>
      obtain ⟨-, hvs⟩ := isPlain_obj.1 hv
      obtain ⟨-, hws⟩ := isPlain_obj.1 hw
      have hms : (sortKeys ms).Perm ms := perm_insertionSort _ ms
      have hns : (sortKeys ns).Perm ns := perm_insertionSort _ ns
      rw [canon_obj, canon_obj] at h
      exact .obj hms.symm hns.symm (sameMembers_of_map (Canon.obj.inj h) fun m hm n hn ↦
        same_members_of_canon ms hvs m (hms.mem_iff.1 hm) n.2 (hws n (hns.mem_iff.1 hn)))
    | _ => cases h

theorem same_items_of_canon : ∀ xs : List Json, (∀ x ∈ xs, x.isPlain = true) → ∀ x ∈ xs,
    ∀ y : Json, y.isPlain = true → x.canon = y.canon → x.Same y
  | [], _, _, hx, _, _, _ => absurd hx not_mem_nil
  | x :: xs, hxs, x', hx, y, hy, h => by
    obtain ⟨hx₀, hxs⟩ := forall_mem_cons.1 hxs
    rcases mem_cons.1 hx with heq | hx
    · rw [heq] at h ⊢
      exact same_of_canon x y hx₀ hy h
    · exact same_items_of_canon xs hxs x' hx y hy h

theorem same_members_of_canon : ∀ ms : List (String × Json), (∀ m ∈ ms, m.2.isPlain = true) →
    ∀ m ∈ ms, ∀ w : Json, w.isPlain = true → m.2.canon = w.canon → m.2.Same w
  | [], _, _, hm, _, _, _ => absurd hm not_mem_nil
  | (k, v) :: ms, hms, m, hm, w, hw, h => by
    obtain ⟨hv, hms⟩ := forall_mem_cons.1 hms
    rcases mem_cons.1 hm with heq | hm
    · rw [heq] at h ⊢
      exact same_of_canon v w hv hw h
    · exact same_members_of_canon ms hms m hm w hw h

end

/-! ## Decoding -/

theorem head?_toDigits_ne (hn : 0 < n) : (Nat.toDigits 10 n).head? ≠ some '0' := by
  induction n using Nat.strongRecOn with
  | ind n ih =>
    by_cases hlt : n < 10
    · rw [Nat.toDigits_of_lt_base hlt]
      have hdigit : ∀ d < 10, 0 < d → [Nat.digitChar d].head? ≠ some '0' := by decide
      exact hdigit n hlt hn
    · rw [Nat.toDigits_of_base_le (by decide) (by omega),
        List.head?_append_of_ne_nil _ Nat.toDigits_ne_nil]
      exact ih (n / 10) (by omega) (by omega)

theorem isDigit_toDigits : ∀ c ∈ Nat.toDigits 10 n, c.isDigit = true := fun _ hc ↦
  Nat.isDigit_of_mem_toDigits (by decide) (by decide) hc

theorem readInteger_of_ne {l : List Char} (h : l.head? ≠ some '0') :
    readInteger l = digitsOf l := by
  rw [readInteger]
  rintro r rfl
  exact h rfl

section

variable {readFloat : List Char → PyFloat}

theorem decodeUnsigned_toDigits (neg : Bool) (n : ℕ) :
    decodeUnsigned readFloat neg (Nat.toDigits 10 n) = some (.int (if neg then -n else n)) := by
  have hinteger : readInteger (Nat.toDigits 10 n) = Nat.toDigits 10 n := by
    rcases Nat.eq_zero_or_pos n with rfl | hn
    · rw [Nat.toDigits_zero]
      rfl
    · rw [readInteger_of_ne (head?_toDigits_ne hn), digitsOf,
        takeWhile_eq_self_iff.2 isDigit_toDigits]
  rw [decodeUnsigned, hinteger]
  simp only [drop_length, readFraction, readExponent, length_nil, Nat.add_zero,
    append_nil, ne_eq, not_true_eq_false, or_false, Nat.toDigits_ne_nil, if_false, if_true,
    Nat.ofDigitChars_ten_toDigits]

theorem decodeNumber_intText (k : ℤ) : decodeNumber readFloat (intText k) = some (.int k) := by
  obtain ⟨c, ds, hds⟩ := exists_cons_of_ne_nil (@Nat.toDigits_ne_nil k.natAbs 10)
  have hc : c.isDigit = true := isDigit_toDigits c (by rw [hds]; exact mem_cons_self)
  have hword : c ≠ 'N' ∧ c ≠ 'I' ∧ c ≠ '-' := by
    refine ⟨?_, ?_, ?_⟩ <;> (rintro rfl; revert hc; decide)
  rw [intText]
  split_ifs with hk
  · rw [hds, decodeNumber, ← hds, decodeUnsigned_toDigits, if_pos rfl,
      show -(k.natAbs : ℤ) = k by omega]
    simp [hword]
  · rw [hds, decodeNumber, ← hds, decodeUnsigned_toDigits, if_neg Bool.false_ne_true,
      show (k.natAbs : ℤ) = k by omega]
    all_goals simp [hword]

variable {ms : List (String × Json)}

theorem foldl_setMember {ms' : List (String × Json)} (h : ((ms ++ ms').map Prod.fst).Nodup) :
    ms'.foldl setMember ms = ms ++ ms' := by
  induction ms' generalizing ms with
  | nil => rw [foldl_nil, append_nil]
  | cons m _ ih =>
    have hfresh : m.1 ∉ ms.map Prod.fst := by
      rw [map_append, nodup_append] at h
      exact fun hm ↦ h.2.2 m.1 hm m.1 mem_cons_self rfl
    rw [foldl_cons, setMember, if_neg hfresh, ih (by rwa [append_assoc]),
      append_assoc, singleton_append]

theorem dictOf_of_nodup (h : (ms.map Prod.fst).Nodup) : dictOf ms = ms := @foldl_setMember [] ms h

theorem decodeMembers_canon (h : ∀ m ∈ ms, ∃ u, m.2.canon.decode readFloat = some u ∧ u.Same m.2) :
    ∃ us, decodeMembers readFloat (ms.map fun m ↦ (m.1, m.2.canon)) = some us ∧
      SameMembers us ms ∧ us.map Prod.fst = ms.map Prod.fst := by
  induction ms with
  | nil => exact ⟨[], rfl, .nil, rfl⟩
  | cons m _ ih =>
    obtain ⟨hm, hms⟩ := forall_mem_cons.1 h
    obtain ⟨u, hu, hsame⟩ := hm
    obtain ⟨us, hus, hsames, hkeys⟩ := ih hms
    refine ⟨(m.1, u) :: us, ?_, .cons m.1 hsame hsames, by rw [map_cons, map_cons, hkeys]⟩
    rw [map_cons, decodeMembers, hu, hus]

mutual

theorem decode_canon : ∀ v : Json, v.isPlain = true →
    ∃ u, v.canon.decode readFloat = some u ∧ u.Same v
  | .null, _ => ⟨_, rfl, .null⟩
  | .bool b, _ => ⟨_, rfl, .bool b⟩
  | .int n, _ => ⟨_, decodeNumber_intText n, .int n⟩
  | .str s, _ => ⟨_, rfl, .str s⟩
  | .arr xs, h => by
    obtain ⟨us, hus, hsame⟩ := decode_items xs (isPlain_arr.1 h)
    exact ⟨.arr us, by rw [Json.canon, Canon.decode, hus, map_some], .arr hsame⟩
  | .obj ms, h => by
    obtain ⟨hnd, hms⟩ := isPlain_obj.1 h
    have hperm : (sortKeys ms).Perm ms := perm_insertionSort _ ms
    obtain ⟨us, hus, hsame, hkeys⟩ := decodeMembers_canon fun m hm ↦
      decode_members ms hms m (hperm.mem_iff.1 hm)
    have hdict : dictOf us = us := by
      refine dictOf_of_nodup ?_
      rw [hkeys]
      exact (hperm.map Prod.fst).nodup_iff.2 hnd
    refine ⟨.obj us, ?_, .obj (.refl us) hperm.symm hsame⟩
    rw [canon_obj, Canon.decode, hus, map_some, hdict]

theorem decode_items : ∀ xs : List Json, (∀ x ∈ xs, x.isPlain = true) →
    ∃ us, decodeItems readFloat (canonItems xs) = some us ∧ SameItems us xs
  | [], _ => ⟨[], rfl, .nil⟩
  | x :: xs, h => by
    obtain ⟨hx, hxs⟩ := forall_mem_cons.1 h
    obtain ⟨u, hu, hsame⟩ := decode_canon x hx
    obtain ⟨us, hus, hsames⟩ := decode_items xs hxs
    exact ⟨u :: us, by rw [canonItems, decodeItems, hu, hus], .cons hsame hsames⟩

theorem decode_members : ∀ ms : List (String × Json), (∀ m ∈ ms, m.2.isPlain = true) → ∀ m ∈ ms,
    ∃ u, m.2.canon.decode readFloat = some u ∧ u.Same m.2
  | [], _, _, hm => absurd hm not_mem_nil
  | (k, v) :: ms, h, m, hm => by
    obtain ⟨hv, hms⟩ := forall_mem_cons.1 h
    rcases mem_cons.1 hm with heq | hm
    · rw [heq]
      exact decode_canon v hv
    · exact decode_members ms hms m hm

end

end

/-! ## Canonical bytes -/

mutual

theorem isFinite_of_isPlain : ∀ v : Json, v.isPlain = true → v.isFinite = true
  | .null, _ => rfl
  | .bool _, _ => rfl
  | .int _, _ => rfl
  | .str _, _ => rfl
  | .arr xs, h => allItems_isFinite_of_isPlain xs h
  | .obj ms, h => by
    rw [Json.isPlain, Json.All, Bool.and_eq_true] at h
    rw [Json.isFinite, Json.All, Bool.true_and]
    exact allMembers_isFinite_of_isPlain ms h.2

theorem allItems_isFinite_of_isPlain : ∀ xs : List Json,
    allItems (fun _ ↦ false) (fun ks ↦ decide ks.Nodup) xs = true →
    allItems PyFloat.isFinite (fun _ ↦ true) xs = true
  | [], _ => rfl
  | x :: xs, h => by
    rw [allItems, Bool.and_eq_true] at h ⊢
    exact ⟨isFinite_of_isPlain x h.1, allItems_isFinite_of_isPlain xs h.2⟩

theorem allMembers_isFinite_of_isPlain : ∀ ms : List (String × Json),
    allMembers (fun _ ↦ false) (fun ks ↦ decide ks.Nodup) ms = true →
    allMembers PyFloat.isFinite (fun _ ↦ true) ms = true
  | [], _ => rfl
  | (_, v) :: ms, h => by
    rw [allMembers, Bool.and_eq_true] at h ⊢
    exact ⟨isFinite_of_isPlain v h.1, allMembers_isFinite_of_isPlain ms h.2⟩

end

theorem PlainJson.canonicalJson_eq (v : PlainJson) :
    canonicalJson v.json = .ok (v.json.text.flatMap String.utf8EncodeChar) := by
  rw [canonicalJson, if_pos (isFinite_of_isPlain v.json v.plain)]

theorem PlainJson.loads_eq (readFloat : List Char → PyFloat) (v : PlainJson) :
    loads readFloat (v.json.text.flatMap String.utf8EncodeChar) =
      v.json.canon.decode readFloat := by
  have hvalid : (v.json.text.flatMap String.utf8EncodeChar).toByteArray.IsValidUTF8 :=
    ⟨v.json.text, rfl⟩
  have hdecoded : String.fromUTF8 _ hvalid = String.ofList v.json.text := rfl
  rw [loads, String.fromUTF8?, dif_pos hvalid, hdecoded, bind_some, String.toList_ofList,
    scanText_text, bind_some]

end AgentColab
