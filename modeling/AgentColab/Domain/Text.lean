import AgentColab.Domain.Uuid

/-!
# White space and numbers

`str.strip` without an argument removes the characters for which `str.isspace` holds. The decimal
digits of a pattern are those of every script. The decimal text of a number determines the number.
-/

namespace AgentColab

/-- `str.isspace` of one character. -/
def isSpace (c : Char) : Bool :=
  c.toNat ∈ [9, 10, 11, 12, 13, 28, 29, 30, 31, 32, 133, 160, 5760, 8192, 8193, 8194, 8195, 8196,
    8197, 8198, 8199, 8200, 8201, 8202, 8232, 8233, 8239, 8287, 12288]

/-- `str.strip()` -/
def strip (s : String) : String := String.ofList (stripChars isSpace s.toList)

/-- The zeros of the decimal digits: ten characters from each are decimal. -/
def decimalZeros : List ℕ :=
  [0x30, 0x660, 0x6f0, 0x7c0, 0x966, 0x9e6, 0xa66, 0xae6, 0xb66, 0xbe6, 0xc66, 0xce6, 0xd66, 0xde6,
    0xe50, 0xed0, 0xf20, 0x1040, 0x1090, 0x17e0, 0x1810, 0x1946, 0x19d0, 0x1a80, 0x1a90, 0x1b50,
    0x1bb0, 0x1c40, 0x1c50, 0xa620, 0xa8d0, 0xa900, 0xa9d0, 0xa9f0, 0xaa50, 0xabf0, 0xff10, 0x104a0,
    0x10d30, 0x11066, 0x110f0, 0x11136, 0x111d0, 0x112f0, 0x11450, 0x114d0, 0x11650, 0x116c0,
    0x11730, 0x118e0, 0x11950, 0x11c50, 0x11d50, 0x11da0, 0x11f50, 0x16a60, 0x16ac0, 0x16b50,
    0x1d7ce, 0x1d7d8, 0x1d7e2, 0x1d7ec, 0x1d7f6, 0x1e140, 0x1e2f0, 0x1e4f0, 0x1e950, 0x1fbf0]

/-- `\d` -/
def isDecimal (c : Char) : Bool :=
  decimalZeros.any fun first ↦ first ≤ c.toNat && c.toNat < first + 10

theorem foldl_toDigits (n : ℕ) :
    (Nat.toDigits 10 n).foldl (fun a c ↦ 10 * a + (c.toNat - 48)) 0 = n := by
  induction n using Nat.strongRecOn with
  | ind n ih =>
    have hdigit : ∀ d < 10, (Nat.digitChar d).toNat - 48 = d := by decide
    by_cases hn : n < 10
    · simpa [Nat.toDigits_of_lt_base hn] using hdigit n hn
    · have hlt : n / 10 < n := by omega
      have hmod : n % 10 < 10 := by omega
      have hsplit : 10 * (n / 10) + n % 10 = n := by omega
      have happend := Nat.toDigits_append_toDigits (by decide) (by omega : 0 < n / 10) hmod
      rw [hsplit, Nat.toDigits_of_lt_base hmod] at happend
      rw [← happend, List.foldl_append, ih _ hlt, List.foldl_cons, List.foldl_nil, hdigit _ hmod]
      exact hsplit

theorem toString_nat_injective {m n : ℕ} (h : toString m = toString n) : m = n := by
  have hdigits : Nat.toDigits 10 m = Nat.toDigits 10 n := by
    have hlist := congrArg String.toList h
    simpa [toString, Nat.repr] using hlist
  rw [← foldl_toDigits m, hdigits, foldl_toDigits]

end AgentColab
