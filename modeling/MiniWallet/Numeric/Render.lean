import MiniWallet.Numeric.Decimal

/-!
# Decimal numbers as text

The two ways in which a decimal number is written out: `str` keeps every digit and the exponent, so
it tells apart decimals of the same value, and `formatFixed` prints the number rounded half to even
to a fixed number of places.
-/

namespace Numeric

namespace Decimal

/-- A signed integer with its sign always written. -/
def signedDigits (n : ℤ) : List Char :=
  (if n < 0 then '-' else '+') :: Nat.toDigits 10 n.natAbs

/-- The minus sign of a negative number, negative zero included. -/
def signChars (d : Decimal) : List Char := if d.negative then ['-'] else []

/-- The decimal as text, every digit kept: plain notation while the exponent is not positive and the
number is not too small, scientific notation otherwise. -/
def str (d : Decimal) : String :=
  let int := Nat.toDigits 10 d.digits
  let leftDigits : ℤ := d.exponent + int.length
  -- in scientific notation one digit stands before the point
  let dotPlace : ℤ := if d.exponent ≤ 0 ∧ -6 < leftDigits then leftDigits else 1
  let mantissa :=
    if dotPlace ≤ 0 then
      '0' :: '.' :: List.replicate (-dotPlace).toNat '0' ++ int
    else if (int.length : ℤ) ≤ dotPlace then
      int ++ List.replicate (dotPlace - int.length).toNat '0'
    else
      int.take dotPlace.toNat ++ '.' :: int.drop dotPlace.toNat
  let exponent :=
    if leftDigits = dotPlace then [] else 'E' :: signedDigits (leftDigits - dotPlace)
  String.ofList (d.signChars ++ mantissa ++ exponent)

/-- `n` in decimal, padded with zeros on the left to `width` digits. -/
def paddedDigits (width n : ℕ) : List Char :=
  let ds := Nat.toDigits 10 n
  List.replicate (width - ds.length) '0' ++ ds

/-- The number rounded half to even to `places` places, in plain notation. -/
def formatFixed (places : ℕ) (d : Decimal) : String :=
  let q := d.roundHalfEvenAbs places
  String.ofList (d.signChars ++ Nat.toDigits 10 (q / 10 ^ places) ++
    '.' :: paddedDigits places (q % 10 ^ places))

example : (⟨false, 10000, -2⟩ : Decimal).str = "100.00" := by decide +kernel

example : (⟨false, 1, 5⟩ : Decimal).str = "1E+5" := by decide +kernel

example : (⟨false, 1, 5⟩ : Decimal).formatFixed 4 = "100000.0000" := by decide +kernel

example : (⟨false, 100005, -5⟩ : Decimal).formatFixed 4 = "1.0000" := by decide +kernel

end Decimal

end Numeric
