import Mathlib.Algebra.Order.Ring.Nat

/-!
# SHA-256

The hash function of FIPS 180-4, on texts in UTF-8 and with the digest in hexadecimal, as
`hashlib.sha256(text.encode()).hexdigest()` computes it. Words are natural numbers below `2 ^ 32`.
-/

namespace Numeric.Sha256

/-- A sum modulo `2 ^ 32`. -/
def add (xs : List ℕ) : ℕ := xs.sum % 2 ^ 32

/-- Rotate a word to the right. -/
def rotr (x n : ℕ) : ℕ := (x >>> n) ||| ((x <<< (32 - n)) % 2 ^ 32)

/-- The complement of a word. -/
def complement (x : ℕ) : ℕ := (2 ^ 32 - 1) ^^^ x

/-- The first 32 bits of the fractional parts of the cube roots of the first 64 primes. -/
def roundConstants : List ℕ :=
  [0x428a2f98, 0x71374491, 0xb5c0fbcf, 0xe9b5dba5, 0x3956c25b, 0x59f111f1, 0x923f82a4, 0xab1c5ed5,
    0xd807aa98, 0x12835b01, 0x243185be, 0x550c7dc3, 0x72be5d74, 0x80deb1fe, 0x9bdc06a7, 0xc19bf174,
    0xe49b69c1, 0xefbe4786, 0x0fc19dc6, 0x240ca1cc, 0x2de92c6f, 0x4a7484aa, 0x5cb0a9dc, 0x76f988da,
    0x983e5152, 0xa831c66d, 0xb00327c8, 0xbf597fc7, 0xc6e00bf3, 0xd5a79147, 0x06ca6351, 0x14292967,
    0x27b70a85, 0x2e1b2138, 0x4d2c6dfc, 0x53380d13, 0x650a7354, 0x766a0abb, 0x81c2c92e, 0x92722c85,
    0xa2bfe8a1, 0xa81a664b, 0xc24b8b70, 0xc76c51a3, 0xd192e819, 0xd6990624, 0xf40e3585, 0x106aa070,
    0x19a4c116, 0x1e376c08, 0x2748774c, 0x34b0bcb5, 0x391c0cb3, 0x4ed8aa4a, 0x5b9cca4f, 0x682e6ff3,
    0x748f82ee, 0x78a5636f, 0x84c87814, 0x8cc70208, 0x90befffa, 0xa4506ceb, 0xbef9a3f7, 0xc67178f2]

/-- The eight working variables. -/
structure Digest where
  a : ℕ
  b : ℕ
  c : ℕ
  d : ℕ
  e : ℕ
  f : ℕ
  g : ℕ
  h : ℕ

/-- The first 32 bits of the fractional parts of the square roots of the first 8 primes. -/
def Digest.initial : Digest :=
  ⟨0x6a09e667, 0xbb67ae85, 0x3c6ef372, 0xa54ff53a, 0x510e527f, 0x9b05688c, 0x1f83d9ab, 0x5be0cd19⟩

/-- One round. -/
def Digest.round (s : Digest) (k w : ℕ) : Digest :=
  let s1 := rotr s.e 6 ^^^ rotr s.e 11 ^^^ rotr s.e 25
  let ch := (s.e &&& s.f) ^^^ (complement s.e &&& s.g)
  let t1 := add [s.h, s1, ch, k, w]
  let s0 := rotr s.a 2 ^^^ rotr s.a 13 ^^^ rotr s.a 22
  let maj := (s.a &&& s.b) ^^^ (s.a &&& s.c) ^^^ (s.b &&& s.c)
  ⟨add [t1, s0, maj], s.a, s.b, s.c, add [s.d, t1], s.e, s.f, s.g⟩

/-- Extend the message schedule by `n` words. The last word comes first. -/
def extend : ℕ → List ℕ → List ℕ
  | 0, ws => ws
  | n + 1, ws =>
      let w15 := ws.getD 14 0
      let w2 := ws.getD 1 0
      let s0 := rotr w15 7 ^^^ rotr w15 18 ^^^ (w15 >>> 3)
      let s1 := rotr w2 17 ^^^ rotr w2 19 ^^^ (w2 >>> 10)
      extend n (add [ws.getD 15 0, s0, ws.getD 6 0, s1] :: ws)

/-- Process one block of 16 words. -/
def Digest.block (s : Digest) (block : List ℕ) : Digest :=
  let ws := (extend 48 block.reverse).reverse
  let t := (roundConstants.zip ws).foldl (fun s kw => s.round kw.1 kw.2) s
  ⟨add [s.a, t.a], add [s.b, t.b], add [s.c, t.c], add [s.d, t.d], add [s.e, t.e], add [s.f, t.f],
    add [s.g, t.g], add [s.h, t.h]⟩

/-- The `k` lowest bytes of a number, the most significant one first. -/
def bytesOf : ℕ → ℕ → List ℕ
  | 0, _ => []
  | k + 1, n => bytesOf k (n / 256) ++ [n % 256]

/-- Pad the message to a multiple of 64 bytes. -/
def pad (message : List ℕ) : List ℕ :=
  message ++ 0x80 :: (List.replicate ((119 - message.length % 64) % 64) 0 ++
    bytesOf 8 (8 * message.length))

/-- The big-endian words of a list of bytes. -/
def words : List ℕ → List ℕ
  | a :: b :: c :: d :: rest => (((a * 256 + b) * 256 + c) * 256 + d) :: words rest
  | _ => []

/-- Process the words of the padded message, sixteen at a time; `n` bounds the number of blocks. -/
def blocks : ℕ → Digest → List ℕ → Digest
  | 0, s, _ => s
  | n + 1, s, ws => if ws.isEmpty then s else blocks n (s.block (ws.take 16)) (ws.drop 16)

/-- The digest of a message. -/
def digest (message : List ℕ) : Digest :=
  let ws := words (pad message)
  blocks ws.length Digest.initial ws

/-- The eight hexadecimal digits of a word. -/
def hexWord (x : ℕ) : List Char :=
  (bytesOf 4 x).flatMap fun b => [Nat.digitChar (b / 16), Nat.digitChar (b % 16)]

/-- The UTF-8 encoding of a text. -/
def utf8 (text : String) : List ℕ :=
  text.toList.flatMap fun c => (String.utf8EncodeChar c).map UInt8.toNat

/-- The hexadecimal digest of a text. -/
def hexdigest (text : String) : String :=
  let s := digest (utf8 text)
  String.ofList ([s.a, s.b, s.c, s.d, s.e, s.f, s.g, s.h].flatMap hexWord)

example : hexdigest "abc" = "ba7816bf8f01cfea414140de5dae2223b00361a396177a9cb410ff61f20015ad" := by
  decide +kernel

end Numeric.Sha256
