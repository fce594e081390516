import MiniWallet.Numeric.Sha256

/-!
# SHA-1

The hash function of FIPS 180-4 that name-based identifiers are made of. Words are natural numbers
below `2 ^ 32`, and a message is padded as for SHA-256.
-/

namespace Numeric.Sha1

open Sha256 (add complement pad words)

/-- Rotate a word to the left. -/
def rotl (x n : ℕ) : ℕ := Sha256.rotr x (32 - n)

/-- The five working variables. -/
structure Digest where
  a : ℕ
  b : ℕ
  c : ℕ
  d : ℕ
  e : ℕ

/-- The initial hash value. -/
def Digest.initial : Digest :=
  ⟨0x67452301, 0xefcdab89, 0x98badcfe, 0x10325476, 0xc3d2e1f0⟩

/-- The function and the constant of a round. -/
def mix (t b c d : ℕ) : ℕ × ℕ :=
  if t < 20 then ((b &&& c) ^^^ (complement b &&& d), 0x5a827999)
  else if t < 40 then (b ^^^ c ^^^ d, 0x6ed9eba1)
  else if t < 60 then ((b &&& c) ^^^ (b &&& d) ^^^ (c &&& d), 0x8f1bbcdc)
  else (b ^^^ c ^^^ d, 0xca62c1d6)

/-- One round. -/
def Digest.round (s : Digest) (t w : ℕ) : Digest :=
  let (f, k) := mix t s.b s.c s.d
  ⟨add [rotl s.a 5, f, s.e, k, w], s.a, rotl s.b 30, s.c, s.d⟩

/-- Extend the message schedule by `n` words. The last word comes first. -/
def extend : ℕ → List ℕ → List ℕ
  | 0, ws => ws
  | n + 1, ws =>
      let w := ws.getD 2 0 ^^^ ws.getD 7 0 ^^^ ws.getD 13 0 ^^^ ws.getD 15 0
      extend n (rotl w 1 :: ws)

/-- Process one block of 16 words. -/
def Digest.block (s : Digest) (block : List ℕ) : Digest :=
  let ws := (extend 64 block.reverse).reverse
  let t := ((List.range 80).zip ws).foldl (fun s tw => s.round tw.1 tw.2) s
  ⟨add [s.a, t.a], add [s.b, t.b], add [s.c, t.c], add [s.d, t.d], add [s.e, t.e]⟩

/-- Process the words of the padded message, sixteen at a time; `n` bounds the number of blocks. -/
def blocks : ℕ → Digest → List ℕ → Digest
  | 0, s, _ => s
  | n + 1, s, ws => if ws.isEmpty then s else blocks n (s.block (ws.take 16)) (ws.drop 16)

/-- The digest of a message. -/
def digest (message : List ℕ) : Digest :=
  let ws := words (pad message)
  blocks ws.length Digest.initial ws

example : (digest (Sha256.utf8 "abc")).a = 0xa9993e36 := by decide +kernel

end Numeric.Sha1
