import Mathlib.Data.List.Sort

/-!
# JSON values and the `jsonb` column

The values that `json.loads` returns. A dict keeps its members in insertion order and has no key
twice; a float is given by its shortest round-trip decimal.

`jsonb` keeps numbers as decimals with a scale. A float whose `repr` has no positive exponent comes
back as a float; from `1e16` on it comes back as an `int`. There is no negative zero. Members come
back ordered by key length and then by bytes. `Json.stored` is the value that is read back.
-/

namespace AgentColab

/-- A finite nonzero float: `0.d₁d₂…dₖ · 10 ^ point`, where `d₁…dₖ` are the digits of the shortest
decimal that rounds to it. -/
structure Decimal where
  neg : Bool
  digits : List ℕ
  point : ℤ
  digits_lt : ∀ d ∈ digits, d < 10
  head_ne : digits.head? ≠ some 0
  length_pos : 0 < digits.length
  length_le : digits.length ≤ 17

/-- A Python `float`. -/
inductive PyFloat where
  | nan
  | inf (neg : Bool)
  | zero (neg : Bool)
  | num (d : Decimal)

inductive Json where
  | null
  | bool (b : Bool)
  | int (n : ℤ)
  | float (f : PyFloat)
  | str (s : String)
  | arr (items : List Json)
  | obj (members : List (String × Json))

namespace Decimal

def natOfDigits (ds : List ℕ) : ℕ := ds.foldl (fun n d ↦ 10 * n + d) 0

@[simp] theorem natOfDigits_concat (ds : List ℕ) (d : ℕ) :
    natOfDigits (ds ++ [d]) = 10 * natOfDigits ds + d := by
  simp [natOfDigits]

def toInt (d : Decimal) : ℤ :=
  let n := natOfDigits (d.digits ++ List.replicate (d.point.toNat - d.digits.length) 0)
  if d.neg then -n else n

end Decimal

/-! ## What the column gives back -/

/-- The value of a number column that was written as this float. -/
def PyFloat.stored : PyFloat → Json
  | .zero _ => .float (.zero false)
  | .num d => if 16 < d.point then .int d.toInt else .float (.num d)
  | f => .float f

/-- The order in which `jsonb` keeps the members of an object. -/
def jsonbLe (a b : String) : Bool :=
  let x := a.toList.flatMap String.utf8EncodeChar
  let y := b.toList.flatMap String.utf8EncodeChar
  x.length < y.length || x.length == y.length && decide (x ≤ y)

mutual

/-- The value that is read back from a `jsonb` column. -/
def Json.stored : Json → Json
  | .float f => f.stored
  | .arr xs => .arr (storedItems xs)
  | .obj ms => .obj ((storedMembers ms).insertionSort fun a b ↦ jsonbLe a.1 b.1)
  | v => v

def storedItems : List Json → List Json
  | [] => []
  | x :: xs => x.stored :: storedItems xs

def storedMembers : List (String × Json) → List (String × Json)
  | [] => []
  | (k, v) :: ms => (k, v.stored) :: storedMembers ms

end

/-! ## Properties of all parts of a value -/

mutual

/-- Every float in the value satisfies `P` and every object satisfies `O`. -/
def Json.All (P : PyFloat → Bool) (O : List String → Bool) : Json → Bool
  | .float f => P f
  | .arr xs => allItems P O xs
  | .obj ms => O (ms.map Prod.fst) && allMembers P O ms
  | _ => true

def allItems (P : PyFloat → Bool) (O : List String → Bool) : List Json → Bool
  | [] => true
  | x :: xs => x.All P O && allItems P O xs

def allMembers (P : PyFloat → Bool) (O : List String → Bool) : List (String × Json) → Bool
  | [] => true
  | (_, v) :: ms => v.All P O && allMembers P O ms

end

def PyFloat.isFinite : PyFloat → Bool
  | .nan => false
  | .inf _ => false
  | _ => true

/-- Whether a float is below `10 ^ 21` in absolute value. -/
def PyFloat.isSmall : PyFloat → Bool
  | .num d => d.point ≤ 21
  | _ => true

def Json.isFinite (v : Json) : Bool := v.All PyFloat.isFinite fun _ ↦ true

/-- Whether all floats in the value are below `10 ^ 21`. -/
def Json.isSmall (v : Json) : Bool := v.All PyFloat.isSmall fun _ ↦ true

/-- Whether no dict in the value has a key twice, as in Python. -/
def Json.isDict (v : Json) : Bool := v.All (fun _ ↦ true) fun ks ↦ decide ks.Nodup

/-- A dict as Python builds it. -/
structure PyDict where
  members : List (String × Json)
  nodup : (Json.obj members).isDict = true

def PyDict.json (d : PyDict) : Json := .obj d.members

theorem storedMembers_eq_map (ms : List (String × Json)) :
    storedMembers ms = ms.map fun m ↦ (m.1, m.2.stored) := by
  induction ms with
  | nil => rfl
  | cons m _ ih => rw [storedMembers, ih, List.map_cons]

end AgentColab
