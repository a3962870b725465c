import AgentColab.Domain.Text
import AgentColab.Events.Json
import Mathlib.Data.List.DropRight

/-!
# Settings

`validate` normalises the value of a setting, and `set` stores what it returns as the next version.
Whatever it returns it also accepts, as it is, so that a rollback restores the value of the version.
Three of its parsers raise errors of their own, which it lets through.
-/

namespace AgentColab.Settings

open Except (ok error)

inductive SettingType where
  | string | integer | boolean | url | path | enum | timezone | language | channelRef
deriving DecidableEq

/-- What is raised: a `SettingsError` by its code, or another exception. -/
inductive Raised where
  | settings (code : String)
  | other

/-- A `SettingSpec`; its validator raises `SettingsError`s, and none of the registry has one. -/
structure SettingSpec where
  type : SettingType
  secret : Bool
  choices : List String
  minimum : Option ℤ
  maximum : Option ℤ
  validator : Option (Json → Option String)

inductive ZoneOutcome where
  | found
  | notFound
  | other

/-- `urlparse`, by scheme and netloc, which may raise `ValueError`, and `zoneinfo.ZoneInfo`, which
may raise what is caught (`ZoneInfoNotFoundError`, `ValueError`) or another exception. -/
structure Parsers where
  urlparse : String → Option (String × String)
  zoneInfo : String → ZoneOutcome

/-- The digits of `str.isdigit` that are no decimal digits, as ranges. -/
def otherDigits : List (ℕ × ℕ) :=
  [(0xb2, 0xb3), (0xb9, 0xb9), (0x1369, 0x1371), (0x19da, 0x19da), (0x2070, 0x2070),
    (0x2074, 0x2079), (0x2080, 0x2089), (0x2460, 0x2468), (0x2474, 0x247c), (0x2488, 0x2490),
    (0x24ea, 0x24ea), (0x24f5, 0x24fd), (0x24ff, 0x24ff), (0x2776, 0x277e), (0x2780, 0x2788),
    (0x278a, 0x2792), (0x10a40, 0x10a43), (0x10e60, 0x10e68), (0x11052, 0x1105a),
    (0x1f100, 0x1f10a)]

/-- `value.strip().lstrip("-").isdigit()` -/
def isNumeric (value : String) : Bool :=
  let cs := (strip value).toList.dropWhile (· = '-')
  cs ≠ [] && cs.all fun c ↦
    isDecimal c || otherDigits.any fun r ↦ r.1 ≤ c.toNat && c.toNat ≤ r.2

/-- `int(value)` of such a text: at most one sign, decimal digits, and no more than 4300 of them. -/
def pyInt (value : String) : Option ℤ :=
  let cs := (strip value).toList
  let ds := if cs.head? = some '-' then cs.tail else cs
  let digit (c : Char) : ℕ :=
    ((decimalZeros.find? fun z ↦ z ≤ c.toNat && c.toNat < z + 10).map (c.toNat - ·)).getD 0
  if ds ≠ [] ∧ ds.all isDecimal ∧ ds.length ≤ 4300 then
    let n : ℕ := ds.foldl (fun n c ↦ 10 * n + digit c) 0
    some (if cs.head? = some '-' then -n else n)
  else none

/-- `$` also matches before a newline at the end. -/
def withoutNewline (cs : List Char) : List Char :=
  if cs.getLast? = some '\n' then cs.dropLast else cs

def isLower (c : Char) : Bool := 'a' ≤ c && c ≤ 'z'

/-- `_LANG` -/
def isLanguage (value : String) : Bool :=
  match withoutNewline value.toList with
  | [a, b] => isLower a && isLower b
  | [a, b, '-', c, d] => isLower a && isLower b && c.isUpper && d.isUpper
  | _ => false

/-- `_CHANNEL` -/
def isChannel (value : String) : Bool :=
  match withoutNewline value.toList with
  | c :: cs => (isLower c || c.isDigit) && 1 ≤ cs.length && cs.length ≤ 63 &&
      cs.all fun d ↦ isLower d || d.isDigit || d = '_' || d = '-'
  | [] => false

/-- `value.rstrip("/")` -/
def rstripSlash (value : String) : String :=
  String.ofList (value.toList.rdropWhile (· = '/'))

/-- `value.lower()`, compared with words in ASCII. -/
def lowered (value : String) : String := String.ofList (value.toList.map Char.toLower)

section

variable (P : Parsers) (spec : SettingSpec)

def refuse (code : String) : Except Raised Json := .error (.settings code)

def inRange (n : ℤ) : Except Raised Json :=
  if spec.minimum.any (n < ·) ∨ spec.maximum.any (· < n) then refuse "SETTING_RANGE_INVALID"
  else .ok (.int n)

/-- The types whose values are texts, and stay as they are except for a URL. -/
def validateText (value : String) : Except Raised Json :=
  match spec.type with
  | .url =>
    match P.urlparse value with
    | none => .error .other
    | some (scheme, netloc) =>
      if scheme ∉ ["http", "https"] ∨ netloc = "" ∨ '@' ∈ netloc.toList then
        refuse "SETTING_ENDPOINT_INVALID"
      else .ok (.str (rstripSlash value))
  | .path =>
    if value.toList.head? ≠ some '/' ∨ ".." ∈ value.splitOn "/" then refuse "SETTING_PATH_INVALID"
    else .ok (.str value)
  | .enum =>
    if value ∉ spec.choices then refuse "SETTING_ENUM_INVALID"
    else .ok (.str value)
  | .timezone =>
    match P.zoneInfo value with
    | .found => .ok (.str value)
    | .notFound => refuse "SETTING_TIMEZONE_INVALID"
    | .other => .error .other
  | .language =>
    if isLanguage value = false then refuse "SETTING_LANGUAGE_INVALID"
    else .ok (.str value)
  | .channelRef =>
    if value ≠ "" ∧ isChannel value = false then refuse "SETTING_CHANNEL_INVALID"
    else .ok (.str value)
  | _ =>
    if spec.secret ∧ value = "" then refuse "SETTING_TYPE_INVALID"
    else .ok (.str value)

/-- `_validate_type` -/
def validateType (value : Json) : Except Raised Json :=
  match spec.type, value with
  | .boolean, .bool b => .ok (.bool b)
  | .boolean, .str s =>
    if lowered s ∈ ["true", "false"] then .ok (.bool (lowered s = "true"))
    else refuse "SETTING_TYPE_INVALID"
  | .boolean, _ => refuse "SETTING_TYPE_INVALID"
  | .integer, .int n => inRange spec n
  | .integer, .str s =>
    if isNumeric s then
      match pyInt s with
      | some n => inRange spec n
      | none => .error .other
    else refuse "SETTING_TYPE_INVALID"
  | .integer, _ => refuse "SETTING_TYPE_INVALID"
  | _, .str s => validateText P spec s
  | _, _ => refuse "SETTING_TYPE_INVALID"

/-- `validate` -/
def validate (value : Json) : Except Raised Json :=
  match validateType P spec value with
  | .error e => .error e
  | .ok normalized =>
    match spec.validator.bind (· normalized) with
    | some code => .error (.settings code)
    | none => .ok normalized

/-! ## Versions -/

/-- A row of `settings_versions`. A value is a boolean, an integer or a text, which `jsonb` and the
encryption of a secret give back. -/
structure Version where
  version : ℕ
  value : Json

def latest (rows : List Version) : ℕ := (rows.map Version.version).max?.getD 0

/-- `SettingsStore.set` -/
def set (rows : List Version) (value : Json) : Except Raised (List Version) :=
  (validate P spec value).map fun v ↦ rows ++ [⟨latest rows + 1, v⟩]

/-- `SettingsStore.rollback` -/
def rollback (rows : List Version) (toVersion : ℕ) : Except Raised (List Version) :=
  match rows.find? (·.version = toVersion) with
  | none => .error (.settings "SETTING_VERSION_UNKNOWN")
  | some target => set P spec rows target.value

inductive Call where
  | set (value : Json)
  | rollback (toVersion : ℕ)

def Call.exec (rows : List Version) : Call → Except Raised (List Version)
  | .set value => Settings.set P spec rows value
  | .rollback toVersion => Settings.rollback P spec rows toVersion

/-- A call that raises writes nothing. -/
def history (calls : List Call) : List Version :=
  calls.foldl (fun rows call ↦ ((call.exec P spec rows).toOption).getD rows) []

/-! ## Totality -/

/-- Slashes at the end of a URL that has a netloc come after it. -/
def Parsers.Stable : Prop := ∀ value scheme netloc, P.urlparse value = some (scheme, netloc) →
  netloc ≠ "" → P.urlparse (rstripSlash value) = some (scheme, netloc)

/-- The value is refused by `SettingsError`, or what is returned is a fixed point. -/
def Sound (value : Json) : Prop :=
  match validate P spec value with
  | .ok v => validate P spec v = .ok v
  | .error (.settings _) => True
  | .error .other => False

/-- A text that one of the parsers refuses with an error of its own. -/
def Foreign : Json → Prop
  | .str s =>
    match spec.type with
    | .integer => isNumeric s = true ∧ pyInt s = none
    | .url => P.urlparse s = none
    | .timezone => P.zoneInfo s = .other
    | _ => False
  | _ => False

end

variable {P : Parsers} {spec : SettingSpec} {value v : Json}

theorem inRange_eq_ok {n : ℤ} (h : inRange spec n = .ok v) : v = .int n := by
  unfold inRange at h
  split_ifs at h
  · cases h
  · exact (ok.inj h).symm

theorem validateText_idem (hP : P.Stable) {s : String} (h : validateText P spec s = .ok v) :
    ∃ s', v = .str s' ∧ validateText P spec s' = .ok (.str s') := by
  by_cases hurl : spec.type = .url
  · simp only [validateText, hurl] at h ⊢
    split at h
    · cases h
    · next scheme netloc hparse =>
      split_ifs at h with hbad
      · cases h
      · refine ⟨_, (ok.inj h).symm, ?_⟩
        rw [hP s scheme netloc hparse fun hempty ↦ hbad (.inr (.inl hempty))]
        simp only [if_neg hbad]
        rw [rstripSlash, rstripSlash, String.toList_ofList, List.rdropWhile_idempotent]
  · -- a text that is not a URL is returned as it is
    have hself : v = .str s := by
      unfold validateText at h
      split at h
      · exact absurd ‹_› hurl
      all_goals split at h <;> first | exact (ok.inj h).symm | cases h
    exact ⟨s, hself, hself ▸ h⟩

theorem validateType_idem (hP : P.Stable) (h : validateType P spec value = .ok v) :
    validateType P spec v = .ok v := by
  unfold validateType at h
  split at h
  case h_1 b ht =>
    obtain rfl := ok.inj h
    simp [validateType, ht]
  case h_2 s ht =>
    split_ifs at h
    · obtain rfl := ok.inj h
      simp [validateType, ht]
    · cases h
  case h_4 n ht =>
    obtain rfl := inRange_eq_ok h
    simpa [validateType, ht] using h
  case h_5 s ht =>
    split_ifs at h
    · split at h
      · obtain rfl := inRange_eq_ok h
        simpa [validateType, ht] using h
      · cases h
    · cases h
  case h_7 s hboolean hinteger =>
    obtain ⟨s', rfl, hs'⟩ := validateText_idem hP h
    unfold validateType
    split <;> simp_all
  all_goals cases h

theorem validate_idem (hP : P.Stable) (h : validate P spec value = .ok v) :
    validate P spec v = .ok v := by
  unfold validate at h
  split at h
  · cases h
  · next normalized hnormalized =>
    split at h
    · cases h
    · next hvalid =>
      obtain rfl := ok.inj h
      rw [validate, validateType_idem hP hnormalized]
      simp only [hvalid]

theorem validateType_other_iff :
    validateType P spec value = .error .other ↔ Foreign P spec value := by
  have hrange : ∀ n, inRange spec n ≠ .error .other := by
    intro n
    unfold inRange refuse
    split_ifs <;> simp
  cases htype : spec.type <;> cases value <;>
    simp only [validateType, Foreign, validateText, htype, refuse, hrange, iff_false, ne_eq]
  all_goals grind

theorem sound_iff (hP : P.Stable) : Sound P spec value ↔ ¬Foreign P spec value := by
  rw [← validateType_other_iff, Sound]
  cases h : validate P spec value with
  | ok v =>
    refine iff_of_true (validate_idem hP h) fun hother ↦ ?_
    simp [validate, hother] at h
  | error e =>
    unfold validate at h
    split at h
    · next raised hraised =>
      obtain rfl := error.inj h
      rw [hraised]
      cases raised <;> simp
    · next hnormalized =>
      rw [hnormalized]
      split at h
      · obtain rfl := error.inj h
        simp
      · cases h

theorem history_valid (hP : P.Stable) (calls : List Call) :
    ∀ row ∈ history P spec calls, validate P spec row.value = .ok row.value := by
  have hset : ∀ {rows rows' : List Version} {value}, Settings.set P spec rows value = .ok rows' →
      (∀ row ∈ rows, validate P spec row.value = .ok row.value) →
        ∀ row ∈ rows', validate P spec row.value = .ok row.value := by
    intro rows rows' value h hrows row hrow
    unfold Settings.set at h
    cases hv : validate P spec value with
    | error => rw [hv] at h; cases h
    | ok v =>
      rw [hv] at h
      obtain rfl := ok.inj h
      rcases List.mem_append.mp hrow with hrow | hrow
      · exact hrows row hrow
      · obtain rfl := List.mem_singleton.mp hrow
        exact validate_idem hP hv
  unfold history
  induction calls using List.reverseRecOn with
  | nil => simp
  | append_singleton calls call ih =>
    rw [List.foldl_append, List.foldl_cons, List.foldl_nil]
    cases hexec : call.exec P spec _ with
    | error => exact ih
    | ok rows =>
      cases call with
      | set value => exact hset hexec ih
      | rollback toVersion =>
        simp only [Call.exec, Settings.rollback] at hexec
        split at hexec
        · cases hexec
        · exact hset hexec ih

/-- Parsers that read `http://h/`. -/
def parsers : Parsers := ⟨fun _ ↦ some ("http", "h"), fun _ ↦ .found⟩

def count : SettingSpec := ⟨.integer, false, [], none, none, none⟩

end AgentColab.Settings
