import AgentColab.Events.Json
import Mathlib.Data.List.Infix

/-!
# Redaction of audit metadata

`redactMetadata` replaces what stands under a sensitive key by a marker and descends into the dicts
that are members of a dict, but not into lists. Redaction is complete on exactly the metadata where
no dict inside a list keeps something else than the marker under a sensitive key.
-/

namespace AgentColab.Observability

open List

/-! ## Paths -/

inductive Step where
  | key (k : String)
  | index (i : ℕ)

def child : Json → Step → Option Json
  | .obj ms, .key k => ms.lookup k
  | .arr xs, .index i => xs[i]?
  | _, _ => none

def valueAt (v : Json) (path : List Step) : Option Json := path.foldlM child v

theorem valueAt_cons (v : Json) (s : Step) (path : List Step) :
    valueAt v (s :: path) = (child v s).bind (valueAt · path) := rfl

theorem valueAt_concat (v : Json) (path : List Step) (s : Step) :
    valueAt v (path ++ [s]) = (valueAt v path).bind (child · s) := by
  simp only [valueAt, foldlM_append, foldlM_cons, foldlM_nil, bind_pure]
  rfl

/-- What a value is, apart from the values it contains. -/
inductive Shape where
  | scalar (v : Json)
  | list (length : ℕ)
  | dict (keys : List String)

def shape : Json → Shape
  | .arr xs => .list xs.length
  | .obj ms => .dict (ms.map Prod.fst)
  | v => .scalar v

/-! ## `redact_metadata` -/

/-- `_REDACT_KEYS` -/
def redactKeys : List String :=
  ["token", "password", "secret", "authorization", "cookie", "dsn", "key", "value"]

/-- The lower case of a character, as far as it has ASCII letters, as two outside ASCII do. -/
def lowerChar (c : Char) : List Char :=
  if c = '\u0130' then ['i', '\u0307']
  else if c = '\u212a' then ['k']
  else [c.toLower]

/-- `any(s in k.lower() for s in _REDACT_KEYS)` -/
def isSensitive (k : String) : Bool :=
  redactKeys.any fun s ↦ s.toList <:+: k.toList.flatMap lowerChar

def redacted : Json := .str "<redacted>"

mutual

/-- A member that stands under no sensitive key: only a dict is descended into. -/
def redactValue : Json → Json
  | .obj ms => .obj (redactMembers ms)
  | v => v

def redactMembers : List (String × Json) → List (String × Json)
  | [] => []
  | (k, v) :: ms => (k, if isSensitive k then redacted else redactValue v) :: redactMembers ms

end

/-- `redact_metadata` -/
def redactMetadata (metadata : Option (List (String × Json))) : List (String × Json) :=
  redactMembers (metadata.getD [])

/-! ## What redaction does at a path -/

/-- No step goes through a sensitive key. -/
def Open (path : List Step) : Prop := ∀ k, .key k ∈ path → isSensitive k = false

def EntersList (path : List Step) : Prop := ∃ i, .index i ∈ path

theorem lookup_redactMembers (ms : List (String × Json)) (k : String) :
    (redactMembers ms).lookup k =
      (ms.lookup k).map fun v ↦ if isSensitive k then redacted else redactValue v := by
  induction ms with
  | nil => rfl
  | cons m _ ih =>
    obtain ⟨k', v⟩ := m
    simp only [redactMembers, lookup_cons]
    by_cases hk : k = k'
    · simp [hk]
    · simp [beq_false_of_ne hk, ih]

theorem keys_redactMembers (ms : List (String × Json)) :
    (redactMembers ms).map Prod.fst = ms.map Prod.fst := by
  induction ms with
  | nil => rfl
  | cons m _ ih => simp [redactMembers, ih]

theorem shape_redactValue (v : Json) : shape (redactValue v) = shape v := by
  cases v with
  | obj => simp [redactValue, shape, keys_redactMembers]
  | null | bool | int | float | str | arr => rfl

variable {k : String} {path : List Step}

theorem child_key_redactValue (hk : isSensitive k = false) (v : Json) :
    child (redactValue v) (.key k) = (child v (.key k)).map redactValue := by
  cases v with
  | obj => simp [redactValue, child, lookup_redactMembers, hk]
  | null | bool | int | float | str | arr => rfl

theorem child_sensitive_redactValue (hk : isSensitive k = true) (v : Json) :
    child (redactValue v) (.key k) = (child v (.key k)).map fun _ ↦ redacted := by
  cases v with
  | obj => simp [redactValue, child, lookup_redactMembers, hk]
  | null | bool | int | float | str | arr => rfl

theorem child_index_redactValue (v : Json) (i : ℕ) :
    child (redactValue v) (.index i) = child v (.index i) := by
  cases v <;> rfl

theorem valueAt_redactValue (hopen : Open path) (hlist : ¬EntersList path) (v : Json) :
    valueAt (redactValue v) path = (valueAt v path).map redactValue := by
  induction path generalizing v with
  | nil => rfl
  | cons s _ ih =>
    cases s with
    | index i => exact absurd ⟨i, mem_cons_self⟩ hlist
    | key k =>
      have hrest := ih (fun k' hk' ↦ hopen k' (mem_cons_of_mem _ hk'))
        fun ⟨i, hi⟩ ↦ hlist ⟨i, mem_cons_of_mem _ hi⟩
      rw [valueAt_cons, valueAt_cons, child_key_redactValue (hopen k mem_cons_self)]
      cases child v (.key k) with
      | none => rfl
      | some w => exact hrest w

theorem valueAt_redactValue_of_entersList (hopen : Open path) (hlist : EntersList path) (v : Json) :
    valueAt (redactValue v) path = valueAt v path := by
  induction path generalizing v with
  | nil =>
    obtain ⟨i, hi⟩ := hlist
    exact absurd hi not_mem_nil
  | cons s path ih =>
    cases s with
    | index => rw [valueAt_cons, valueAt_cons, child_index_redactValue]
    | key k =>
      obtain ⟨i, hi⟩ := hlist
      have hi : .index i ∈ path := by simpa using hi
      rw [valueAt_cons, valueAt_cons, child_key_redactValue (hopen k mem_cons_self)]
      cases child v (.key k) with
      | none => rfl
      | some w => exact ih (fun k' hk' ↦ hopen k' (mem_cons_of_mem _ hk')) ⟨i, hi⟩ w

/-! ## Completeness -/

/-- What the log should get: the marker wherever a value stands under a sensitive key, and
everywhere else what was there. -/
structure Complete (input output : Json) : Prop where
  hidden : ∀ path k v, Open path → isSensitive k → valueAt input (path ++ [.key k]) = some v →
    valueAt output (path ++ [.key k]) = some redacted
  kept : ∀ path, Open path → (valueAt output path).map shape = (valueAt input path).map shape

/-- Inside of lists nothing but the marker stands under a sensitive key. -/
def ListsClear (input : Json) : Prop :=
  ∀ path k v, Open path → EntersList path → isSensitive k →
    valueAt input (path ++ [.key k]) = some v → v = redacted

theorem kept_redactValue (v : Json) (hopen : Open path) :
    (valueAt (redactValue v) path).map shape = (valueAt v path).map shape := by
  by_cases hlist : EntersList path
  · rw [valueAt_redactValue_of_entersList hopen hlist]
  · rw [valueAt_redactValue hopen hlist, Option.map_map]
    exact congrArg (Option.map · _) (funext shape_redactValue)

theorem valueAt_sensitive_of_entersList (hopen : Open path) (hlist : EntersList path) (v : Json)
    (k : String) : valueAt (redactValue v) (path ++ [.key k]) = valueAt v (path ++ [.key k]) := by
  rw [valueAt_concat, valueAt_concat, valueAt_redactValue_of_entersList hopen hlist]

theorem valueAt_sensitive (hopen : Open path) (hlist : ¬EntersList path) (hk : isSensitive k)
    (v : Json) : valueAt (redactValue v) (path ++ [.key k]) =
      (valueAt v (path ++ [.key k])).map fun _ ↦ redacted := by
  rw [valueAt_concat, valueAt_concat, valueAt_redactValue hopen hlist]
  cases valueAt v path with
  | none => rfl
  | some w => exact child_sensitive_redactValue hk w

/-- **Redaction is complete** exactly when no dict inside a list keeps a value under a sensitive
key. -/
theorem redactMetadata_complete_iff (metadata : Option (List (String × Json))) :
    Complete (.obj (metadata.getD [])) (.obj (redactMetadata metadata)) ↔
      ListsClear (.obj (metadata.getD [])) := by
  have hvalue : Json.obj (redactMetadata metadata) = redactValue (.obj (metadata.getD [])) := by
    rw [redactMetadata, redactValue]
  rw [hvalue]
  generalize Json.obj (metadata.getD []) = input
  constructor
  · intro h path k v hopen hlist hk hv
    have hhidden := h.hidden path k v hopen hk hv
    rw [valueAt_sensitive_of_entersList hopen hlist, hv] at hhidden
    exact Option.some.inj hhidden
  · intro h
    refine ⟨fun path k v hopen hk hv ↦ ?_, fun path hopen ↦ kept_redactValue input hopen⟩
    by_cases hlist : EntersList path
    · rw [valueAt_sensitive_of_entersList hopen hlist, hv, h path k v hopen hlist hk hv]
    · rw [valueAt_sensitive hopen hlist hk, hv, Option.map_some]

def credentials : List (String × Json) :=
  [("items", .arr [.obj [("token", .str "s3cret")]])]

example : valueAt (.obj (redactMetadata (some credentials)))
    [.key "items", .index 0, .key "token"] = some (.str "s3cret") := rfl

theorem credentials_not_complete :
    ¬Complete (.obj credentials) (.obj (redactMetadata (some credentials))) := by
  intro h
  have hopen : Open [.key "items", .index 0] := by
    intro k hk
    obtain rfl : k = "items" := by simpa using hk
    decide +kernel
  have hhidden := h.hidden _ "token" (.str "s3cret") hopen (by decide +kernel) rfl
  have hleak : valueAt (.obj (redactMetadata (some credentials)))
      ([.key "items", .index 0] ++ [.key "token"]) = some (.str "s3cret") := rfl
  rw [hleak, redacted] at hhidden
  simp at hhidden

end AgentColab.Observability
