import Mathlib.Algebra.Order.Field.Basic
import Mathlib.Algebra.Order.Ring.Pow
import Mathlib.Algebra.Order.Ring.Rat
import Mathlib.Data.Nat.Cast.Order.Field
import Mathlib.Tactic.FieldSimp
import Mathlib.Tactic.Linarith
import Mathlib.Tactic.NormNum
import Mathlib.Tactic.Positivity
import Mathlib.Tactic.Ring
import Ratchet.Proofs.Bounds

/-!
# How far rounding goes

A rounded quotient lies within half a unit of its last digit (`abs_roundTo_sub_le`). Seen from the
value itself that is a factor of at most `slack`, unless the value is so small that the least unit
is its last digit.

`Near k x y` says that `x` and `y` are at most `k` such factors apart. It does not matter which of
the two was rounded, and factors add up along products, quotients and further rounding
(`Near.mul`, `Near.div`, `Near.trans`), so the error of a calculation is a count of its steps.
-/

namespace Ratchet

variable {n d : Nat}

theorem two_mul_nearestEven_le (n : Nat) (hd : 0 < d) :
    2 * (nearestEven n d * d) ≤ 2 * n + d ∧ 2 * n ≤ 2 * (nearestEven n d * d) + d := by
  have hdiv : n / d * d + n % d = n := Nat.div_add_mod' n d
  have hmod : n % d < d := Nat.mod_lt n hd
  have hnext : (n / d + 1) * d = n / d * d + d := Nat.succ_mul _ _
  unfold nearestEven
  split
  · omega
  · split
    · rw [hnext]
      omega
    · rcases Nat.mod_two_eq_zero_or_one (n / d) with heven | hodd
      · rw [heven, Nat.add_zero]
        omega
      · rw [hodd, hnext]
        omega

/-- The unit of the last digit that is kept. -/
def lastUnit (p n d : Nat) : Nat := Nat.pow 2 (lastDigit p (n / d))

theorem lastUnit_le_of_lt {p e : Nat} (hp : 0 < p) (h : n / d < Nat.pow 2 (p + e)) :
    lastUnit p n d ≤ Nat.pow 2 e := by
  refine Nat.pow_le_pow_right Nat.two_pos ?_
  by_cases hzero : n / d = 0
  · rw [hzero, lastDigit, Nat.log2_zero]
    omega
  · exact lastDigit_le_of_lt hzero h

theorem abs_roundTo_sub_le_half (p n : Nat) (hd : 0 < d) :
    |(roundTo p n d : ℚ) - n / d| ≤ lastUnit p n d / 2 := by
  have hdQ : (0 : ℚ) < d := by exact_mod_cast hd
  obtain ⟨hhigh, hlow⟩ := two_mul_nearestEven_le n
    (Nat.mul_pos hd (zero_lt_two_pow (lastDigit p (n / d))))
  have hround : nearestEven n (d * Nat.pow 2 (lastDigit p (n / d))) *
      (d * Nat.pow 2 (lastDigit p (n / d))) = roundTo p n d * d := by
    unfold roundTo
    ring
  rw [hround] at hhigh hlow
  have hhighQ : 2 * ((roundTo p n d : ℚ) * d) ≤ 2 * n + d * lastUnit p n d := by
    exact_mod_cast hhigh
  have hlowQ : 2 * (n : ℚ) ≤ 2 * (roundTo p n d * d) + d * lastUnit p n d := by
    exact_mod_cast hlow
  have hn : (n : ℚ) = n / d * d := (div_mul_cancel₀ _ hdQ.ne').symm
  rw [hn] at hhighQ hlowQ
  rw [abs_sub_le_iff]
  constructor
  · refine le_of_mul_le_mul_right ?_ hdQ
    linarith
  · refine le_of_mul_le_mul_right ?_ hdQ
    linarith

/-- A last digit above the least unit comes with all the digits before it. -/
theorem abs_roundTo_sub_le {p : Nat} (hp : 0 < p) (n : Nat) (hd : 0 < d) :
    |(roundTo p n d : ℚ) - n / d| ≤ max (1 / 2 : ℚ) (n / d / 2 ^ p) := by
  refine (abs_roundTo_sub_le_half p n hd).trans ?_
  rcases Nat.eq_zero_or_pos (lastDigit p (n / d)) with hzero | hpos
  · refine le_max_of_le_left (le_of_eq ?_)
    rw [lastUnit, hzero, show Nat.pow 2 0 = 1 from rfl, Nat.cast_one]
  · refine le_max_of_le_right ?_
    have hwhole := two_pow_le_of_lastDigit_pos hp hpos
    have hquot : ((n / d : Nat) : ℚ) ≤ n / d := Nat.cast_div_le
    have hunit : (2 : ℚ) ^ (p - 1) * lastUnit p n d ≤ (n / d : Nat) := by
      exact_mod_cast hwhole
    have hpow : (2 : ℚ) ^ p = 2 * 2 ^ (p - 1) := by
      rw [← pow_succ', Nat.sub_add_cancel hp]
    have hpos : (0 : ℚ) < 2 ^ (p - 1) := by positivity
    rw [hpow, le_div_iff₀ (by positivity)]
    linarith

namespace Magnitude

/-- How many least units make one. The number is large, and calculations are to leave it alone. -/
@[irreducible] def perOne : ℚ := one

theorem perOne_eq : perOne = one := by
  unfold perOne
  rfl

theorem perOne_pos : 0 < perOne := by
  rw [perOne_eq]
  exact_mod_cast zero_lt_one

end Magnitude

/-! ## Factors -/

/-- What a rounding can do to a value, and undo. -/
def slack : ℚ := 1 + 1 / 2 ^ 52

theorem one_le_slack : 1 ≤ slack := by
  norm_num [slack]

theorem slack_pos : 0 < slack := lt_of_lt_of_le one_pos one_le_slack

/-- At most `k` factors apart. -/
structure Near (k : Nat) (x y : ℚ) : Prop where
  le : x ≤ y * slack ^ k
  ge : y ≤ x * slack ^ k

namespace Near

variable {i j k : Nat} {x y z x' y' : ℚ}

theorem refl (x : ℚ) : Near 0 x x := by
  constructor <;> simp

theorem trans (h : Near i x y) (h' : Near j y z) : Near (i + j) x z := by
  have hpow (k : Nat) : 0 ≤ slack ^ k := pow_nonneg slack_pos.le k
  constructor
  · calc x ≤ y * slack ^ i := h.le
      _ ≤ z * slack ^ j * slack ^ i := mul_le_mul_of_nonneg_right h'.le (hpow i)
      _ = z * slack ^ (i + j) := by ring
  · calc z ≤ y * slack ^ j := h'.ge
      _ ≤ x * slack ^ i * slack ^ j := mul_le_mul_of_nonneg_right h.ge (hpow j)
      _ = x * slack ^ (i + j) := by ring

theorem mono (h : Near i x y) (hx : 0 ≤ x) (hy : 0 ≤ y) (hij : i ≤ j) : Near j x y := by
  have hpow : slack ^ i ≤ slack ^ j := pow_le_pow_right₀ one_le_slack hij
  exact ⟨h.le.trans (mul_le_mul_of_nonneg_left hpow hy),
    h.ge.trans (mul_le_mul_of_nonneg_left hpow hx)⟩

theorem mul (h : Near i x y) (h' : Near j x' y') (hx : 0 ≤ x) (hy : 0 ≤ y) (hx' : 0 ≤ x')
    (hy' : 0 ≤ y') : Near (i + j) (x * x') (y * y') := by
  have hpow (k : Nat) : 0 ≤ slack ^ k := pow_nonneg slack_pos.le k
  constructor
  · calc x * x' ≤ y * slack ^ i * (y' * slack ^ j) :=
          mul_le_mul h.le h'.le hx' (mul_nonneg hy (hpow i))
      _ = y * y' * slack ^ (i + j) := by ring
  · calc y * y' ≤ x * slack ^ i * (x' * slack ^ j) :=
          mul_le_mul h.ge h'.ge hy' (mul_nonneg hx (hpow i))
      _ = x * x' * slack ^ (i + j) := by ring

theorem inv (h : Near k x y) (hx : 0 < x) (hy : 0 < y) : Near k x⁻¹ y⁻¹ := by
  have hle {a b : ℚ} (ha : 0 < a) (hb : 0 < b) (hab : b ≤ a * slack ^ k) :
      a⁻¹ ≤ b⁻¹ * slack ^ k := by
    calc a⁻¹ = b * (a⁻¹ * b⁻¹) := by field_simp
      _ ≤ a * slack ^ k * (a⁻¹ * b⁻¹) := mul_le_mul_of_nonneg_right hab (by positivity)
      _ = b⁻¹ * slack ^ k := by field_simp
  exact ⟨hle hx hy h.ge, hle hy hx h.le⟩

theorem div (h : Near i x y) (h' : Near j x' y') (hx : 0 ≤ x) (hy : 0 ≤ y) (hx' : 0 < x')
    (hy' : 0 < y') : Near (i + j) (x / x') (y / y') := by
  rw [div_eq_mul_inv, div_eq_mul_inv]
  exact h.mul (h'.inv hx' hy') hx hy (by positivity) (by positivity)

/-- What lies within `k` units of the last place of 53 digits is within `k` roundings. -/
theorem of_abs_sub_le (hk : (k : ℚ) ≤ 2 ^ 52) (hy : 0 ≤ y) (h : |x - y| ≤ k * (y / 2 ^ 53)) :
    Near k x y := by
  obtain ⟨hhigh, hlow⟩ := abs_sub_le_iff.1 h
  have hpow : 1 + k * (1 / 2 ^ 52) ≤ slack ^ k :=
    one_add_mul_le_pow (by norm_num) k
  have hkpos : (0 : ℚ) ≤ k := Nat.cast_nonneg k
  have hxpos : 0 ≤ x := by
    nlinarith
  constructor
  · have hfactor : y * (1 + k * (1 / 2 ^ 52)) ≤ y * slack ^ k := mul_le_mul_of_nonneg_left hpow hy
    nlinarith
  · have hfactor : x * (1 + k * (1 / 2 ^ 52)) ≤ x * slack ^ k :=
      mul_le_mul_of_nonneg_left hpow hxpos
    nlinarith

end Near

end Ratchet
