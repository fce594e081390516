import Mathlib.Algebra.Order.Field.Rat
import Mathlib.Algebra.Order.Floor.Semifield
import Mathlib.Data.Rat.Floor
import Mathlib.Tactic.FieldSimp
import Mathlib.Tactic.Linarith
import Mathlib.Tactic.Positivity
import Mathlib.Tactic.Ring

/-!
# Decimal numbers and their roundings

A finite decimal number is a sign, a natural number of digits and a power of ten; two of them can
be different and have the same `value`. A column with a fixed number of places stores a decimal as
an integer multiple of `10 ^ -places`. Two ways to get there occur in practice:

* `roundHalfAway`: ties go away from zero, as a fixed-point column rounds what it stores;
* `roundHalfEven`: ties go to the even neighbour, as fixed-point formatting rounds what it prints.

Everything is computed on integers, from the fraction `num / den` equal to the magnitude scaled by
`10 ^ places`. `value_mul_pow` and `exceeds_iff` say what these integers mean as rational numbers.

The main facts are `roundHalfAway_le`, that a bound on the unrounded number which is itself a
multiple of `10 ^ -places` is also a bound on the rounded one, and `roundHalfEven_eq_roundHalfAway`,
that the two roundings differ at ties only.
-/

namespace Numeric

/-- A finite decimal number `± digits * 10 ^ exponent`. -/
structure Decimal where
  /-- Whether the number carries a minus sign. -/
  negative : Bool
  /-- The digits of the number, read as a natural number. -/
  digits : ℕ
  /-- The power of ten that the digits are multiplied with. -/
  exponent : ℤ
deriving DecidableEq, Repr

namespace Decimal

/-- `-1` for a number with a minus sign, `1` otherwise. -/
def sign (d : Decimal) : ℤ := if d.negative then -1 else 1

/-- The rational number that a decimal stands for. -/
def value (d : Decimal) : ℚ := d.sign * (d.digits * 10 ^ d.exponent)

/-- The decimal with `places` places that stands for `n * 10 ^ -places`. -/
def ofScaled (places : ℕ) (n : ℤ) : Decimal := ⟨n < 0, n.natAbs, -places⟩

/-- Numerator of the magnitude scaled by `10 ^ places`. -/
def num (places : ℕ) (d : Decimal) : ℕ := d.digits * 10 ^ (d.exponent + places).toNat

/-- Denominator of the magnitude scaled by `10 ^ places`. -/
def den (places : ℕ) (d : Decimal) : ℕ := 10 ^ (-(d.exponent + places)).toNat

/-- The multiple of `10 ^ -places` nearest to `d`, ties going away from zero. -/
def roundHalfAway (places : ℕ) (d : Decimal) : ℤ :=
  d.sign * ((2 * d.num places + d.den places) / (2 * d.den places) : ℕ)

/-- The magnitude of the multiple of `10 ^ -places` nearest to `d`, ties going to the even one. -/
def roundHalfEvenAbs (places : ℕ) (d : Decimal) : ℕ :=
  let q := d.num places / d.den places
  let r := d.num places % d.den places
  if d.den places < 2 * r ∨ (2 * r = d.den places ∧ q % 2 = 1) then q + 1 else q

/-- The multiple of `10 ^ -places` nearest to `d`, ties going to the even one. -/
def roundHalfEven (places : ℕ) (d : Decimal) : ℤ := d.sign * (d.roundHalfEvenAbs places : ℤ)

/-- `d.Exceeds places n`: the number is larger than `n * 10 ^ -places`. -/
def Exceeds (d : Decimal) (places : ℕ) (n : ℤ) : Prop :=
  n * d.den places < d.sign * d.num places

/-- Whether a decimal exceeds an amount is decidable, by integers. -/
instance (d : Decimal) (places : ℕ) (n : ℤ) : Decidable (d.Exceeds places n) :=
  inferInstanceAs (Decidable (_ < _))

/-- The number is zero or negative. -/
def Nonpositive (d : Decimal) : Prop := d.negative = true ∨ d.digits = 0

/-- Whether a decimal is not positive is decidable. -/
instance (d : Decimal) : Decidable d.Nonpositive :=
  inferInstanceAs (Decidable (_ ∨ _))

/-- The denominator is positive. -/
theorem den_pos (places : ℕ) (d : Decimal) : 0 < d.den places :=
  Nat.pow_pos (by norm_num)

/-- Scaled by `10 ^ places`, the number is the signed fraction `num / den`. -/
theorem value_mul_pow (places : ℕ) (d : Decimal) :
    d.value * 10 ^ places = d.sign * (d.num places / d.den places) := by
  have hten : (10 : ℚ) ≠ 0 := by norm_num
  have hpow : (10 : ℚ) ^ d.exponent * 10 ^ places = 10 ^ (d.exponent + places) := by
    rw [zpow_add₀ hten, zpow_natCast]
  have hscaled : (10 : ℚ) ^ (d.exponent + places) =
      10 ^ (d.exponent + places).toNat / 10 ^ (-(d.exponent + places)).toNat := by
    rcases le_total 0 (d.exponent + places) with h | h
    · rw [Int.toNat_of_nonpos (by omega : -(d.exponent + places) ≤ 0), pow_zero, div_one,
        ← zpow_natCast, Int.toNat_of_nonneg h]
    · rw [Int.toNat_of_nonpos h, pow_zero, ← zpow_natCast,
        Int.toNat_of_nonneg (by omega : 0 ≤ -(d.exponent + places)), zpow_neg, one_div, inv_inv]
  calc d.value * 10 ^ places
      = d.sign * (d.digits * (10 ^ d.exponent * 10 ^ places)) := by rw [value]; ring
    _ = d.sign * (d.num places / d.den places) := by
        rw [hpow, hscaled, num, den]
        push_cast
        ring

/-- `Exceeds` compares the numbers that both sides stand for. -/
theorem exceeds_iff (d : Decimal) (places : ℕ) (n : ℤ) :
    d.Exceeds places n ↔ (n : ℚ) / 10 ^ places < d.value := by
  have hden : (0 : ℚ) < d.den places := by exact_mod_cast d.den_pos places
  have hpow : (0 : ℚ) < 10 ^ places := by positivity
  rw [div_lt_iff₀ hpow, value_mul_pow, ← mul_div_assoc, lt_div_iff₀ hden, Exceeds]
  constructor
  · intro h
    exact_mod_cast h
  · intro h
    exact_mod_cast h

/-- The number is not positive exactly if its value is not. -/
theorem nonpositive_iff (d : Decimal) : d.Nonpositive ↔ d.value ≤ 0 := by
  have hpow : (0 : ℚ) < 10 ^ d.exponent := zpow_pos (by norm_num) _
  have hmag : (0 : ℚ) ≤ d.digits * 10 ^ d.exponent := mul_nonneg (Nat.cast_nonneg _) hpow.le
  cases hneg : d.negative with
  | true => simpa [Nonpositive, value, sign, hneg] using hmag
  | false =>
      simp only [Nonpositive, value, sign, hneg, Bool.false_eq_true, false_or, if_false,
        Int.cast_one, one_mul]
      constructor
      · intro h
        simp [h]
      · intro h
        have hzero := le_antisymm h hmag
        rcases mul_eq_zero.mp hzero with h | h
        · exact_mod_cast h
        · exact absurd h hpow.ne'

/-- Rounding half away from zero adds one half to the magnitude and drops the fraction. -/
theorem roundHalfAway_eq_floor (places : ℕ) (d : Decimal) :
    d.roundHalfAway places =
      d.sign * (⌊(d.num places : ℚ) / d.den places + 1 / 2⌋₊ : ℤ) := by
  have hden : (d.den places : ℚ) ≠ 0 := by exact_mod_cast (d.den_pos places).ne'
  have hfrac : (d.num places : ℚ) / d.den places + 1 / 2 =
      ((2 * d.num places + d.den places : ℕ) : ℚ) / ((2 * d.den places : ℕ) : ℚ) := by
    push_cast
    field_simp
  rw [hfrac, Nat.floor_div_eq_div, roundHalfAway]

/-- Rounding half away from zero depends on the value only. -/
theorem roundHalfAway_congr {places : ℕ} {d d' : Decimal} (h : d.value = d'.value) :
    d.roundHalfAway places = d'.roundHalfAway places := by
  have hmul := congrArg (· * (10 : ℚ) ^ places) h
  simp only [value_mul_pow] at hmul
  have hfrac (x : Decimal) : (0 : ℚ) ≤ x.num places / x.den places := by positivity
  rw [roundHalfAway_eq_floor, roundHalfAway_eq_floor]
  -- equal values have equal magnitudes, and equal signs unless both are zero
  cases hd : d.negative <;> cases hd' : d'.negative <;>
    simp only [sign, hd, hd', Bool.false_eq_true, if_true, if_false, Int.cast_neg, Int.cast_one,
      one_mul, neg_mul, neg_inj] at hmul ⊢
  · rw [hmul]
  · have hz : (d'.num places : ℚ) / d'.den places = 0 := by
      linarith [hfrac d, hfrac d']
    rw [hmul, hz]
    norm_num
  · have hz : (d.num places : ℚ) / d.den places = 0 := by
      linarith [hfrac d, hfrac d']
    rw [← hmul, hz]
    norm_num
  · rw [hmul]

/-- Numbers of the same value have the same magnitude `num / den`. -/
theorem fraction_congr (places : ℕ) {d d' : Decimal} (h : d.value = d'.value) :
    d.num places * d'.den places = d'.num places * d.den places := by
  have hden : (d.den places : ℚ) ≠ 0 := by exact_mod_cast (d.den_pos places).ne'
  have hden' : (d'.den places : ℚ) ≠ 0 := by exact_mod_cast (d'.den_pos places).ne'
  have hsign (x : Decimal) : |(x.sign : ℚ)| = 1 := by
    unfold sign
    split <;> simp
  have hmagnitude := congrArg (fun x : ℚ => |x * 10 ^ places|) h
  simp only [value_mul_pow, abs_mul, hsign, one_mul, abs_div, Nat.abs_cast] at hmagnitude
  rw [div_eq_div_iff hden hden'] at hmagnitude
  exact_mod_cast hmagnitude

/-- Rounding half to even depends on the value only. -/
theorem roundHalfEvenAbs_congr {places : ℕ} {d d' : Decimal} (h : d.value = d'.value) :
    d.roundHalfEvenAbs places = d'.roundHalfEvenAbs places := by
  have hfraction := fraction_congr places h
  have hpos := d.den_pos places
  have hpos' := d'.den_pos places
  rw [roundHalfEvenAbs, roundHalfEvenAbs]
  -- from here on two equal fractions of naturals
  generalize d.num places = a at *
  generalize d'.num places = a' at *
  generalize d.den places = b at *
  generalize d'.den places = b' at *
  have hquotient : a / b = a' / b' := by
    rw [← Nat.mul_div_mul_right a b hpos', hfraction, mul_comm b b',
      Nat.mul_div_mul_right a' b' hpos]
  -- the remainders, brought to a common denominator, agree too
  have hrest : (a % b) * b' = (a' % b') * b := by
    have hsplit := Nat.mod_add_div a b
    have hsplit' := Nat.mod_add_div a' b'
    rw [← hquotient] at hsplit'
    nlinarith
  -- so both remainders are on the same side of one half
  have hlt : b < 2 * (a % b) ↔ b' < 2 * (a' % b') := by
    rw [← Nat.mul_lt_mul_right hpos', mul_assoc, hrest, ← mul_assoc, mul_comm b b',
      Nat.mul_lt_mul_right hpos]
  have heq : 2 * (a % b) = b ↔ 2 * (a' % b') = b' := by
    rw [← Nat.mul_left_inj hpos'.ne', mul_assoc, hrest, ← mul_assoc, mul_comm b b',
      Nat.mul_left_inj hpos.ne']
  simp only [hquotient, hlt, heq]
/-- A multiple of `10 ^ -places` is not moved by rounding. -/
@[simp]
theorem roundHalfAway_ofScaled (places : ℕ) (n : ℤ) :
    (ofScaled places n).roundHalfAway places = n := by
  have hnum : (ofScaled places n).num places = n.natAbs := by simp [ofScaled, num]
  have hden : (ofScaled places n).den places = 1 := by simp [ofScaled, den]
  rw [roundHalfAway, hnum, hden, show (2 * n.natAbs + 1) / (2 * 1) = n.natAbs by omega]
  by_cases h : n < 0
  · have : (ofScaled places n).sign = -1 := by simp [ofScaled, sign, h]
    rw [this]
    omega
  · have : (ofScaled places n).sign = 1 := by simp [ofScaled, sign, h]
    rw [this]
    omega

/-- The decimal with `places` places for `n` stands for `n * 10 ^ -places`. -/
theorem value_ofScaled (places : ℕ) (n : ℤ) : (ofScaled places n).value = n / 10 ^ places := by
  have hpow : (10 : ℚ) ^ places ≠ 0 := by positivity
  have hsign : (ofScaled places n).sign * (n.natAbs : ℤ) = n := by
    by_cases h : n < 0
    · have hs : (ofScaled places n).sign = -1 := by simp [ofScaled, sign, h]
      rw [hs]
      omega
    · have hs : (ofScaled places n).sign = 1 := by simp [ofScaled, sign, h]
      rw [hs]
      omega
  have hmag : ((ofScaled places n).sign : ℚ) * (n.natAbs : ℚ) = n := by
    conv_rhs => rw [← hsign]
    rw [Int.cast_mul, Int.cast_natCast]
  rw [value, eq_div_iff hpow, mul_assoc, mul_assoc]
  conv_lhs => rw [show (ofScaled places n).digits = n.natAbs from rfl,
    show (ofScaled places n).exponent = -(places : ℤ) from rfl, zpow_neg, zpow_natCast,
    inv_mul_cancel₀ hpow, mul_one, hmag]

/-- If a number does not exceed a multiple of `10 ^ -places`, neither does its rounding: the check
on the unrounded number is enough for what is stored. -/
theorem roundHalfAway_le {places : ℕ} {d : Decimal} {n : ℤ} (h : ¬ d.Exceeds places n) :
    d.roundHalfAway places ≤ n := by
  have hden := d.den_pos places
  rw [Exceeds, not_lt] at h
  rw [roundHalfAway]
  have hdiv := Nat.div_mul_le_self (2 * d.num places + d.den places) (2 * d.den places)
  have hlt := Nat.lt_div_mul_add (a := 2 * d.num places + d.den places)
    (b := 2 * d.den places) (by omega)
  generalize (2 * d.num places + d.den places) / (2 * d.den places) = q at *
  cases hneg : d.negative with
  | false =>
      simp only [sign, hneg, Bool.false_eq_true, if_false, one_mul] at h ⊢
      -- `q ≤ num / den + 1 / 2 < n + 1` as all of them are integers
      have hn : 0 ≤ n := by
        by_contra hneg'
        have : n * (d.den places : ℤ) < 0 := by
          apply mul_neg_of_neg_of_pos (not_le.mp hneg')
          exact_mod_cast hden
        have : (0 : ℤ) ≤ d.num places := by positivity
        omega
      obtain ⟨m, rfl⟩ := Int.eq_ofNat_of_zero_le hn
      have h' : d.num places ≤ m * d.den places := by exact_mod_cast h
      have hq : q * (2 * d.den places) < (m + 1) * (2 * d.den places) := by nlinarith
      have := Nat.lt_of_mul_lt_mul_right hq
      omega
  | true =>
      simp only [sign, hneg, if_true, neg_mul, one_mul] at h ⊢
      -- `-q ≤ -(num / den) + 1 / 2`, and `-(num / den) ≤ n`
      by_contra hlt'
      rw [not_le] at hlt'
      have hqn : ((q : ℤ) + 1) * (2 * d.den places) ≤ -n * (2 * d.den places) := by
        apply mul_le_mul_of_nonneg_right _ (by positivity)
        omega
      have hlt2 : (2 * d.num places + d.den places : ℤ) <
          q * (2 * d.den places) + 2 * d.den places := by exact_mod_cast hlt
      have hd : (0 : ℤ) < d.den places := by exact_mod_cast hden
      nlinarith

/-- Rounding half away from zero goes up from one half on. -/
theorem roundHalfAway_eq (places : ℕ) (d : Decimal) :
    d.roundHalfAway places = d.sign * ((if d.den places ≤ 2 * (d.num places % d.den places)
      then d.num places / d.den places + 1 else d.num places / d.den places : ℕ) : ℤ) := by
  have hden := d.den_pos places
  have hmod := Nat.mod_lt (d.num places) hden
  -- twice the numerator plus the denominator is split at the whole part
  have hsplit : 2 * d.num places + d.den places =
      2 * (d.num places % d.den places) + d.den places +
        2 * d.den places * (d.num places / d.den places) := by
    have := Nat.mod_add_div (d.num places) (d.den places)
    nlinarith
  rw [roundHalfAway, hsplit, Nat.add_mul_div_left _ _ (by omega)]
  congr 2
  split
  · -- the remainder reaches one half: one is added
    next h =>
      rw [show (2 * (d.num places % d.den places) + d.den places) / (2 * d.den places) = 1 by
        exact Nat.div_eq_of_lt_le (by omega) (by omega)]
      ring
  · -- the remainder is below one half
    next h =>
      rw [Nat.div_eq_of_lt (by omega)]
      ring

/-- The two roundings of a number agree: it does not lie halfway between two multiples of
`10 ^ -places` of which the lower one is even. -/
def RoundsAlike (places : ℕ) (d : Decimal) : Prop :=
  ¬ (2 * (d.num places % d.den places) = d.den places ∧
    d.num places / d.den places % 2 = 0)

/-- Whether both roundings of a decimal agree is decidable. -/
instance (places : ℕ) (d : Decimal) : Decidable (d.RoundsAlike places) :=
  inferInstanceAs (Decidable (¬ _))

/-- A number is rounded to the same multiple unless it is such a tie. -/
theorem roundHalfEven_eq_roundHalfAway {places : ℕ} {d : Decimal} (h : d.RoundsAlike places) :
    d.roundHalfEven places = d.roundHalfAway places := by
  rw [roundHalfAway_eq, roundHalfEven, roundHalfEvenAbs]
  simp only [RoundsAlike, not_and] at h
  congr 2
  split <;> split <;> first | rfl | omega

/-- Such a tie is rounded to two different multiples. -/
theorem roundHalfEven_eq_roundHalfAway_iff {places : ℕ} {d : Decimal} :
    d.roundHalfEven places = d.roundHalfAway places ↔ d.RoundsAlike places := by
  refine ⟨?_, roundHalfEven_eq_roundHalfAway⟩
  rintro h ⟨hhalf, heven⟩
  have hsign : d.sign ≠ 0 := by
    unfold sign
    split <;> decide
  rw [roundHalfAway_eq, roundHalfEven, roundHalfEvenAbs] at h
  replace h := Int.ofNat.inj (mul_left_cancel₀ hsign h)
  rw [if_neg (by omega), if_pos (by omega)] at h
  omega

/-- A multiple of `10 ^ -places` is no tie. -/
theorem roundsAlike_of_value {places : ℕ} {d : Decimal} {n : ℤ} (h : d.value = n / 10 ^ places) :
    d.RoundsAlike places := by
  have hden : (d.den places : ℚ) ≠ 0 := by exact_mod_cast (d.den_pos places).ne'
  have hpow : (10 : ℚ) ^ places ≠ 0 := by positivity
  -- the numerator is a multiple of the denominator, up to the sign
  have hscaled : d.sign * (d.num places : ℤ) = n * (d.den places : ℤ) := by
    have hvalue := d.value_mul_pow places
    rw [h, div_mul_cancel₀ _ hpow, ← mul_div_assoc, eq_div_iff hden] at hvalue
    exact_mod_cast hvalue.symm
  have hdvd : d.den places ∣ d.num places := by
    have hsigned : (d.den places : ℤ) ∣ d.sign * d.num places := ⟨n, by rw [hscaled, mul_comm]⟩
    have habs := Int.natAbs_dvd_natAbs.mpr hsigned
    have hsign : d.sign.natAbs = 1 := by
      unfold sign
      split <;> rfl
    rwa [Int.natAbs_mul, hsign, one_mul] at habs
  -- so the remainder is zero, and no tie
  rintro ⟨hhalf, -⟩
  have hpos := d.den_pos places
  rw [Nat.mod_eq_zero_of_dvd hdvd] at hhalf
  omega
/-- Rounding half to even gives no larger magnitude than rounding half away from zero. -/
theorem roundHalfEvenAbs_le (places : ℕ) (d : Decimal) :
    d.roundHalfEvenAbs places ≤ (d.roundHalfAway places).natAbs := by
  have hsign : ∀ n : ℕ, (d.sign * (n : ℤ)).natAbs = n := by
    intro n
    unfold sign
    split <;> omega
  rw [roundHalfAway_eq, hsign, roundHalfEvenAbs]
  split <;> split <;> omega

/-- What was rounded already is not moved by rounding. -/
theorem roundHalfAway_scaled (places : ℕ) (negative : Bool) (n : ℕ) :
    (⟨negative, n, -places⟩ : Decimal).roundHalfAway places = if negative then -(n : ℤ) else n := by
  rw [roundHalfAway]
  simp only [num, den, neg_add_cancel, Int.toNat_zero, pow_zero, mul_one, neg_zero]
  rw [show (2 * n + 1) / 2 = n by omega, sign]
  split <;> simp

example : (⟨false, 100005, -5⟩ : Decimal).roundHalfAway 4 = 10001 := by decide

example : (⟨false, 100005, -5⟩ : Decimal).roundHalfEven 4 = 10000 := by decide

end Decimal

end Numeric
