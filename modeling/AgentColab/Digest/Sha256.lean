import Mathlib.Data.Nat.Notation

/-!
# SHA-256

The hash function on byte lists, by its definition. Words are natural numbers below `2 ^ 32`, the
message schedule is a sliding window of sixteen words, and every recursion is structural.

The results that use a hash function are about an arbitrary one, and this one instantiates them.
-/

namespace Sha256

/-- Words are computed modulo this. -/
def modulus : ℕ := 4294967296

def rotateRight (n x : ℕ) : ℕ := ((x >>> n) ||| (x <<< (32 - n))) % modulus

/-- The first 32 bits of the fractional parts of the cube roots of the first 64 primes. -/
def roundConstants : List ℕ := [
  0x428a2f98, 0x71374491, 0xb5c0fbcf, 0xe9b5dba5, 0x3956c25b, 0x59f111f1, 0x923f82a4, 0xab1c5ed5,
  0xd807aa98, 0x12835b01, 0x243185be, 0x550c7dc3, 0x72be5d74, 0x80deb1fe, 0x9bdc06a7, 0xc19bf174,
  0xe49b69c1, 0xefbe4786, 0x0fc19dc6, 0x240ca1cc, 0x2de92c6f, 0x4a7484aa, 0x5cb0a9dc, 0x76f988da,
  0x983e5152, 0xa831c66d, 0xb00327c8, 0xbf597fc7, 0xc6e00bf3, 0xd5a79147, 0x06ca6351, 0x14292967,
  0x27b70a85, 0x2e1b2138, 0x4d2c6dfc, 0x53380d13, 0x650a7354, 0x766a0abb, 0x81c2c92e, 0x92722c85,
  0xa2bfe8a1, 0xa81a664b, 0xc24b8b70, 0xc76c51a3, 0xd192e819, 0xd6990624, 0xf40e3585, 0x106aa070,
  0x19a4c116, 0x1e376c08, 0x2748774c, 0x34b0bcb5, 0x391c0cb3, 0x4ed8aa4a, 0x5b9cca4f, 0x682e6ff3,
  0x748f82ee, 0x78a5636f, 0x84c87814, 0x8cc70208, 0x90befffa, 0xa4506ceb, 0xbef9a3f7, 0xc67178f2]

structure State where
  (a b c d e f g h : ℕ)

def State.initial : State :=
  ⟨0x6a09e667, 0xbb67ae85, 0x3c6ef372, 0xa54ff53a, 0x510e527f, 0x9b05688c, 0x1f83d9ab, 0x5be0cd19⟩

/-- One round, on the sum of the round constant and the schedule word. -/
def State.round (s : State) (kw : ℕ) : State :=
  let s1 := rotateRight 6 s.e ^^^ rotateRight 11 s.e ^^^ rotateRight 25 s.e
  let ch := (s.e &&& s.f) ^^^ ((modulus - 1 - s.e) &&& s.g)
  let t1 := s.h + s1 + ch + kw
  let s0 := rotateRight 2 s.a ^^^ rotateRight 13 s.a ^^^ rotateRight 22 s.a
  let maj := (s.a &&& s.b) ^^^ (s.a &&& s.c) ^^^ (s.b &&& s.c)
  ⟨(t1 + (s0 + maj)) % modulus, s.a, s.b, s.c, (s.d + t1) % modulus, s.e, s.f, s.g⟩

/-- The word that the schedule appends after this window of sixteen. -/
def nextWord (w : List ℕ) : ℕ :=
  let w15 := w.getD 1 0
  let w2 := w.getD 14 0
  let s0 := rotateRight 7 w15 ^^^ rotateRight 18 w15 ^^^ (w15 >>> 3)
  let s1 := rotateRight 17 w2 ^^^ rotateRight 19 w2 ^^^ (w2 >>> 10)
  (w.getD 0 0 + s0 + w.getD 9 0 + s1) % modulus

/-- The rounds with these constants; the window moves by one word in each. -/
def rounds : List ℕ → List ℕ → State → State
  | [], _, s => s
  | k :: ks, w, s => rounds ks (w.tail ++ [nextWord w]) (s.round (k + w.headD 0))

def State.compress (s : State) (w : List ℕ) : State :=
  let r := rounds roundConstants w s
  ⟨(s.a + r.a) % modulus, (s.b + r.b) % modulus, (s.c + r.c) % modulus, (s.d + r.d) % modulus,
    (s.e + r.e) % modulus, (s.f + r.f) % modulus, (s.g + r.g) % modulus, (s.h + r.h) % modulus⟩

/-- The last `n` bytes of `x`, the most significant one first. -/
def bigEndian (n x : ℕ) : List ℕ := (List.range n).map fun i ↦ (x >>> (8 * (n - 1 - i))) % 256

/-- The message with its padding: a multiple of 64 bytes. -/
def pad (m : List ℕ) : List ℕ :=
  m ++ [0x80] ++ List.replicate ((119 - m.length % 64) % 64) 0 ++ bigEndian 8 (8 * m.length)

def words : List ℕ → List ℕ
  | a :: b :: c :: d :: r => (a * 16777216 + b * 65536 + c * 256 + d) :: words r
  | _ => []

/-- Compress `n` blocks of sixteen words. -/
def blocks : ℕ → List ℕ → State → State
  | 0, _, s => s
  | n + 1, ws, s => blocks n (ws.drop 16) (s.compress (ws.take 16))

def digest (m : List ℕ) : State :=
  let p := pad m
  blocks (p.length / 64) (words p) .initial

/-- A word as eight lower-case hexadecimal digits. -/
def hexWord (x : ℕ) : List Char :=
  (List.range 8).map fun i ↦ Nat.digitChar ((x >>> (4 * (7 - i))) % 16)

/-- The digest as 64 lower-case hexadecimal digits. -/
def hexDigest (m : List UInt8) : String :=
  let s := digest (m.map UInt8.toNat)
  String.ofList ([s.a, s.b, s.c, s.d, s.e, s.f, s.g, s.h].flatMap hexWord)

/-! ## Evaluation

In the kernel a word is evaluated again wherever it is used. `Strict` is the same function with
each word evaluated before it is used, and its operations spelled so that the kernel computes them
directly. -/

/-- Continue with a number that has been evaluated. -/
def force {α : Type} (x : ℕ) (k : ℕ → α) : α :=
  match x with
  | 0 => k 0
  | n + 1 => k (n + 1)

theorem force_eq {α : Type} (x : ℕ) (k : ℕ → α) : force x k = k x := by cases x <;> rfl

namespace Strict

def rotateRight (n x : ℕ) : ℕ :=
  ((x.shiftRight n).lor (x.shiftLeft (Nat.sub 32 n))).mod 4294967296

def nextWord : List ℕ → ℕ
  | w0 :: w1 :: _ :: _ :: _ :: _ :: _ :: _ :: _ :: w9 :: _ :: _ :: _ :: _ :: w14 :: _ =>
    (((w0.add (((rotateRight 7 w1).xor (rotateRight 18 w1)).xor (w1.shiftRight 3))).add w9).add
      (((rotateRight 17 w14).xor (rotateRight 19 w14)).xor (w14.shiftRight 10))).mod 4294967296
  | w => Sha256.nextWord w

def rounds : List ℕ → List ℕ → ℕ → ℕ → ℕ → ℕ → ℕ → ℕ → ℕ → ℕ → State
  | [], _, a, b, c, d, e, f, g, h => ⟨a, b, c, d, e, f, g, h⟩
  | k :: ks, w, a, b, c, d, e, f, g, h =>
    force (((h.add (((rotateRight 6 e).xor (rotateRight 11 e)).xor (rotateRight 25 e))).add
        ((e.land f).xor ((Nat.sub 4294967295 e).land g))).add (k.add (w.headD 0))) fun t1 ↦
      force ((t1.add ((((rotateRight 2 a).xor (rotateRight 13 a)).xor (rotateRight 22 a)).add
        (((a.land b).xor (a.land c)).xor (b.land c)))).mod 4294967296) fun a' ↦
        force ((d.add t1).mod 4294967296) fun e' ↦
          force (nextWord w) fun n ↦ rounds ks (w.tail ++ [n]) a' a b c e' e f g

def add (s r : State) (k : State → State) : State :=
  force ((s.a.add r.a).mod 4294967296) fun a ↦ force ((s.b.add r.b).mod 4294967296) fun b ↦
    force ((s.c.add r.c).mod 4294967296) fun c ↦ force ((s.d.add r.d).mod 4294967296) fun d ↦
      force ((s.e.add r.e).mod 4294967296) fun e ↦ force ((s.f.add r.f).mod 4294967296) fun f ↦
        force ((s.g.add r.g).mod 4294967296) fun g ↦
          force ((s.h.add r.h).mod 4294967296) fun h ↦ k ⟨a, b, c, d, e, f, g, h⟩

def blocks : ℕ → List ℕ → State → State
  | 0, _, s => s
  | n + 1, ws, s =>
    add s (rounds roundConstants (ws.take 16) s.a s.b s.c s.d s.e s.f s.g s.h)
      fun s' ↦ blocks n (ws.drop 16) s'

def hexDigest (m : List UInt8) : String :=
  let p := pad (m.map UInt8.toNat)
  let s := blocks (p.length / 64) (words p) .initial
  String.ofList ([s.a, s.b, s.c, s.d, s.e, s.f, s.g, s.h].flatMap hexWord)

theorem nextWord_eq (w : List ℕ) : nextWord w = Sha256.nextWord w := by
  rw [nextWord.eq_def]
  split <;> rfl

theorem rounds_eq (ks w : List ℕ) (a b c d e f g h : ℕ) :
    rounds ks w a b c d e f g h = Sha256.rounds ks w ⟨a, b, c, d, e, f, g, h⟩ := by
  induction ks generalizing w a b c d e f g h with
  | nil => rfl
  | cons k _ ih =>
    rw [rounds, force_eq, force_eq, force_eq, force_eq, nextWord_eq, ih]
    rfl

theorem blocks_eq (n : ℕ) (ws : List ℕ) (s : State) : blocks n ws s = Sha256.blocks n ws s := by
  induction n generalizing ws s with
  | zero => rfl
  | succ n ih =>
    rw [blocks, add]
    simp only [force_eq, ih, rounds_eq]
    rfl

end Strict

theorem hexDigest_eq_strict : hexDigest = Strict.hexDigest := by
  funext m
  rw [hexDigest, digest, Strict.hexDigest]
  simp only [Strict.blocks_eq]

end Sha256
