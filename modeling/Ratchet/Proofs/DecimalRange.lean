import Ratchet.Number.Numeral
import Ratchet.Proofs.Scaling

/-!
# Which written numbers are in range

A quotient rounds to a finite value exactly if it lies below the middle between the greatest double
and the next power of two (`Binary64.isFinite_nearest_iff`): the middle itself is a tie, and the
even neighbour is out of range. So a written decimal is in range exactly if it stands for less than
`2 ^ 1024 - 2 ^ 970` (`Binary64.isFinite_ofDecimal_iff`). The decimals that are told apart by their
size alone, and are never divided out, are on the side of the middle where this puts them.
-/

namespace Ratchet

namespace Binary64

open Magnitude (greatest greatestUnit greatestExponent perOne perOne_eq)

variable {n d : Nat}

/-- Where rounding leaves the range, in least units. -/
@[irreducible] def middle : Nat := greatest.units + greatestUnit / 2

/-- It is half a last digit below the end of the range, and rounds up to it. -/
theorem middle_spec :
    2 * middle + greatestUnit = 2 * beyond ∧ roundTo Format.double.digits middle 1 = beyond := by
  unfold middle beyond
  decide +kernel

theorem middle_eq : (middle : ℚ) = (2 ^ 1024 - 2 ^ 970) * perOne := by
  -- With the exponents in place the powers would be computed.
  have hcast (a b : Nat) (h : middle + Nat.pow 2 a * Magnitude.one = Nat.pow 2 b * Magnitude.one) :
      (middle : ℚ) = (2 ^ b - 2 ^ a) * perOne := by
    rw [sub_mul, eq_sub_iff_add_eq, perOne_eq]
    exact_mod_cast h
  refine hcast 970 1024 ?_
  unfold middle
  decide +kernel

/-- Below the middle half a last digit does not reach out of range. -/
theorem roundTo_lt_beyond (hd : 0 < d) (h : n < middle * d) :
    roundTo Format.double.digits n d < beyond := by
  have hmiddle := middle_spec.1
  have hquotient : (n : ℚ) / d < middle := by
    rw [div_lt_iff₀ (Nat.cast_pos.2 hd)]
    exact_mod_cast h
  have hunit : (lastUnit Format.double.digits n d : ℚ) ≤ greatestUnit := by
    have hdigits : Format.double.digits + greatestExponent = Format.double.limit := by
      unfold greatestExponent
      rfl
    have hlimit : Nat.pow 2 (Format.double.digits + greatestExponent) = beyond := by
      rw [beyond_eq, hdigits]
    have hdiv : n / d < middle := Nat.div_lt_of_lt_mul (by rwa [Nat.mul_comm])
    exact_mod_cast lastUnit_le_of_lt (by decide)
      (show n / d < Nat.pow 2 (Format.double.digits + greatestExponent) by omega)
  have hround := (abs_sub_le_iff.1 (abs_roundTo_sub_le_half Format.double.digits n hd)).1
  have hsum : 2 * (middle : ℚ) + greatestUnit = 2 * beyond := by
    exact_mod_cast hmiddle
  have hlt : (roundTo Format.double.digits n d : ℚ) < beyond := by
    linarith
  exact_mod_cast hlt

theorem isFinite_nearest_iff (s : Bool) (hd : 0 < d) :
    (nearest s n d).isFinite ↔ n < middle * d := by
  rw [isFinite_iff_of_place (place?_nearest s n d), natAbs_signed, nearestUnits]
  constructor
  · intro h
    by_contra hle
    have hmono : roundTo Format.double.digits middle 1 ≤ roundTo Format.double.digits n d :=
      roundTo_mono (by decide) Nat.one_pos hd (by omega)
    rw [middle_spec.2] at hmono
    omega
  · intro h
    have hlt := roundTo_lt_beyond hd h
    omega

end Binary64

namespace Decimal

variable {x : Decimal}

/-- What a decimal stands for. -/
def value (x : Decimal) : ℚ := x.coeff * 10 ^ x.exponent

theorem value_lt (x : Decimal) : x.value < 10 ^ x.size := by
  have hcount : 0 < digitCount x.coeff := List.length_pos_iff.2 (digits_ne_nil x.coeff)
  have hcoeff : (x.coeff : ℚ) < 10 ^ (digitCount x.coeff : Int) := by
    rw [← Json.NumberText.cast_pow_ten]
    exact_mod_cast (digitCount_le_iff hcount).1 (Nat.le_refl _)
  rw [value, size, zpow_add₀ (by norm_num)]
  exact mul_lt_mul_of_pos_right hcoeff (by positivity)

theorem le_value (hx : x.coeff ≠ 0) : 10 ^ (x.size - 1) ≤ x.value := by
  have hcount : 0 < digitCount x.coeff := List.length_pos_iff.2 (digits_ne_nil x.coeff)
  have hcoeff : Nat.pow 10 (digitCount x.coeff - 1) ≤ x.coeff := by
    rcases Nat.eq_zero_or_pos (digitCount x.coeff - 1) with hzero | hpos
    · rw [hzero]
      exact Nat.pos_of_ne_zero hx
    · exact (lt_digitCount_iff hpos).1 (by omega)
  have hcoeffQ : (10 : ℚ) ^ (digitCount x.coeff - 1 : Int) ≤ x.coeff := by
    rw [show (digitCount x.coeff - 1 : Int) = (digitCount x.coeff - 1 : Nat) by omega,
      ← Json.NumberText.cast_pow_ten]
    exact_mod_cast hcoeff
  have hsize : x.size - 1 = (digitCount x.coeff - 1 : Int) + x.exponent := by
    rw [size]
    omega
  rw [value, hsize, zpow_add₀ (by norm_num)]
  exact mul_le_mul_of_nonneg_right hcoeffQ (by positivity)

end Decimal

namespace Binary64

/-! The decimals that are told apart by their size are far from the middle. -/

theorem tiny_le_limit : (10 : ℚ) ^ (-400 : Int) ≤ 2 ^ 1024 - 2 ^ 970 := by
  have hlimit : (2 : ℚ) ^ 1024 - 2 ^ 970 = 2 ^ 970 * (2 ^ 54 - 1) := by
    rw [mul_sub, mul_one, ← pow_add]
  calc (10 : ℚ) ^ (-400 : Int) ≤ 1 := zpow_le_one_of_nonpos₀ (by norm_num) (by norm_num)
    _ ≤ 2 ^ 970 * (2 ^ 54 - 1) :=
        one_le_mul_of_one_le_of_one_le (one_le_pow₀ (by norm_num)) (by norm_num)
    _ = 2 ^ 1024 - 2 ^ 970 := hlimit.symm

theorem limit_le_huge : (2 : ℚ) ^ 1024 - 2 ^ 970 ≤ 10 ^ (400 : Int) := by
  calc (2 : ℚ) ^ 1024 - 2 ^ 970 ≤ 2 ^ 1024 := sub_le_self _ (by positivity)
    _ = (2 ^ 64) ^ 16 := by rw [← pow_mul]
    _ ≤ (10 ^ 25) ^ 16 := pow_le_pow_left₀ (by positivity) (by norm_num) 16
    _ = 10 ^ (400 : Int) := by rw [← pow_mul, zpow_ofNat]

theorem isFinite_ofDecimal_iff (neg : Bool) (x : Decimal) :
    (ofDecimal neg x).isFinite ↔ x.value < 2 ^ 1024 - 2 ^ 970 := by
  by_cases htiny : x.coeff = 0 ∨ x.size < -Decimal.horizon
  · rw [ofDecimal_of_tiny neg htiny]
    refine iff_of_true rfl ?_
    rcases htiny with hzero | hsize
    · rw [Decimal.value, hzero, Nat.cast_zero, zero_mul]
      exact (zpow_pos (by norm_num) _).trans_le tiny_le_limit
    · have hpow : (10 : ℚ) ^ x.size ≤ 10 ^ (-400 : Int) :=
        zpow_le_zpow_right₀ (by norm_num) (by unfold Decimal.horizon at hsize; omega)
      exact x.value_lt.trans_le (hpow.trans tiny_le_limit)
  · obtain ⟨hcoeff, hsize⟩ := not_or.1 htiny
    by_cases hhuge : Decimal.horizon < x.size
    · rw [ofDecimal_of_huge neg hcoeff hhuge]
      refine iff_of_false Bool.false_ne_true (not_lt.2 ?_)
      have hpow : (10 : ℚ) ^ (400 : Int) ≤ 10 ^ (x.size - 1) :=
        zpow_le_zpow_right₀ (by norm_num) (by unfold Decimal.horizon at hhuge; omega)
      exact limit_le_huge.trans (hpow.trans (Decimal.le_value hcoeff))
    · rw [ofDecimal_of_quotient neg hcoeff (by omega) (by omega),
        isFinite_nearest_iff neg (zero_lt_pow (by omega) _), ← Nat.cast_lt (α := ℚ)]
      have hten := Json.NumberText.cast_pow_ten_pos (-x.exponent).toNat
      have hunits : (x.coeff : ℚ) * (10 ^ x.exponent * (Nat.pow 10 (-x.exponent).toNat : Nat)) *
          Magnitude.perOne = x.value * (Magnitude.perOne * (Nat.pow 10 (-x.exponent).toNat : Nat)) := by
        unfold Decimal.value
        ring
      rw [Nat.cast_mul, Nat.cast_mul, Nat.cast_mul, ← Json.NumberText.pow_ten_mul,
        ← Magnitude.perOne_eq, middle_eq, hunits, mul_assoc (2 ^ 1024 - 2 ^ 970),
        mul_lt_mul_iff_of_pos_right (mul_pos Magnitude.perOne_pos hten)]

end Binary64

namespace Numeral

/-- A numeral is neither one of the words nor so large that it rounds out of range. -/
def InRange : Numeral → Prop
  | nan => False
  | infinite _ => False
  | decimal _ x => x.value < 2 ^ 1024 - 2 ^ 970

theorem isFinite_toBinary64_iff {n : Numeral} : n.toBinary64.isFinite ↔ n.InRange := by
  cases n with
  | nan => exact iff_of_false Bool.false_ne_true id
  | infinite => exact iff_of_false Bool.false_ne_true id
  | decimal neg x => exact Binary64.isFinite_ofDecimal_iff neg x

end Numeral

end Ratchet
