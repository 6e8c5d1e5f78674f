import Mathlib.Algebra.Order.Field.Power
import Ratchet.Proofs.Approximation
import Ratchet.Proofs.JsonValue

/-!
# Scaling stays near

The value of a written number comes out of at most two divisions or one product, of operands that
were rounded themselves. `Magnitude.RoundedFrom` says that a magnitude is a value after one
rounding; a rounded operand is near what it was rounded from, also where the first of two divisions
leaves the range of full precision. So scaling in range ends in one rounding of a value near the
exact one (`exists_scale`). Next to the greatest magnitudes a product may leave the range; those are
counted down (`Magnitude.exists_fromGreatest`).
-/

namespace Ratchet

namespace Magnitude

/-- The number that a magnitude stands for. -/
def value (m : Magnitude) : ℚ := m.units / perOne

/-- A magnitude is a value after rounding: half a least unit away, or half a unit of the last of 53
digits. -/
def RoundedFrom (m : Magnitude) (w : ℚ) : Prop :=
  |(m.units : ℚ) - w * perOne| ≤ max (1 / 2) (w * perOne / 2 ^ 53)

variable {m a p : Magnitude} {w : ℚ} {k n d : Nat}

theorem value_mul_perOne (m : Magnitude) : m.value * perOne = m.units :=
  div_mul_cancel₀ _ perOne_pos.ne'

theorem value_nonneg (m : Magnitude) : 0 ≤ m.value :=
  div_nonneg (Nat.cast_nonneg _) perOne_pos.le

theorem value_pos (h : 0 < m.units) : 0 < m.value :=
  div_pos (Nat.cast_pos.2 h) perOne_pos

theorem roundedFrom_nearest {s s' : Bool} (hd : 0 < d)
    (h : Binary64.nearest s n d = .finite s' m) (hw : w * perOne = n / d) : m.RoundedFrom w := by
  unfold RoundedFrom
  rw [hw, Binary64.units_of_nearest h]
  exact abs_roundTo_sub_le (by decide) n hd

/-- Rounding away from the least unit is a small factor. -/
theorem RoundedFrom.near (h : m.RoundedFrom w) (hw : 0 ≤ w) (hk : (k : ℚ) ≤ 2 ^ 52)
    (hsize : 2 ^ 52 ≤ k * (w * perOne)) : Near k m.value w := by
  have hone := perOne_pos
  have hwone : 0 ≤ w * perOne := mul_nonneg hw hone.le
  have hhalf : (1 / 2 : ℚ) ≤ k * (w * perOne / 2 ^ 53) := by
    linarith
  have hk' : (1 : ℚ) ≤ k := by
    rcases Nat.eq_zero_or_pos k with rfl | hpos
    · norm_num at hsize
    · exact_mod_cast hpos
  have hlast : w * perOne / 2 ^ 53 ≤ k * (w * perOne / 2 ^ 53) :=
    le_mul_of_one_le_left (by positivity) hk'
  have hunits : Near k (m.units : ℚ) (w * perOne) :=
    .of_abs_sub_le hk hwone (h.trans (max_le hhalf hlast))
  have hscaled := hunits.div (.refl perOne) (by positivity) hwone hone hone
  rwa [Nat.add_zero, mul_div_cancel_right₀ _ hone.ne'] at hscaled

/-! ## Operations -/

theorem exists_nearest {c : Magnitude} (hd : 0 < d) (h : n ≤ c.units * d) :
    ∃ m, Binary64.nearest false n d = .finite false m := by
  have hround := Binary64.nearest_units false c Nat.one_pos
  have hratio : n * 1 ≤ c.units * 1 * d := by rwa [Nat.mul_one, Nat.mul_one]
  obtain ⟨m, hm, -⟩ := Binary64.exists_nearest_of_le hd Nat.one_pos hratio hround false
  exact ⟨m, hm⟩

theorem exists_mul {c : Magnitude} (h : a.value * p.value ≤ c.value) :
    ∃ m, Binary64.finite false a * Binary64.finite false p = .finite false m ∧
      m.RoundedFrom (a.value * p.value) := by
  have hone := perOne_pos
  have hproduct : a.value * p.value * (perOne * perOne) = (a.units : ℚ) * p.units := by
    rw [← value_mul_perOne a, ← value_mul_perOne p]
    ring
  have hunits : a.units * p.units ≤ c.units * one := by
    have hscaled := mul_le_mul_of_nonneg_right h (mul_nonneg hone.le hone.le)
    rw [hproduct, ← mul_assoc c.value, value_mul_perOne c, perOne_eq] at hscaled
    exact_mod_cast hscaled
  obtain ⟨m, hm⟩ := exists_nearest zero_lt_one hunits
  refine ⟨m, ?_, roundedFrom_nearest zero_lt_one hm ?_⟩
  · rw [Binary64.finite_mul_finite, bne_self_eq_false, hm]
  · rw [Nat.cast_mul, ← hproduct, ← perOne_eq]
    field_simp

/-- A quotient by one or more is the quotient of the values, rounded. -/
theorem exists_div (h : one ≤ p.units) :
    ∃ m, Binary64.finite false a / Binary64.finite false p = .finite false m ∧
      m.RoundedFrom (a.value / p.value) := by
  have hone := perOne_pos
  have hp : 0 < p.units := Nat.lt_of_lt_of_le zero_lt_one h
  obtain ⟨m, hm⟩ := exists_nearest hp (Nat.mul_le_mul_left a.units h)
  refine ⟨m, ?_, roundedFrom_nearest hp hm ?_⟩
  · rw [Binary64.finite_div_finite hp.ne', bne_self_eq_false, hm]
  · have hpQ : (p.units : ℚ) ≠ 0 := Nat.cast_ne_zero.2 hp.ne'
    rw [value, value, Nat.cast_mul, ← perOne_eq]
    field_simp

/-! ## The greatest magnitudes -/

theorem ext_units {m m' : Magnitude} (h : m.units = m'.units) : m = m' := by
  cases m
  cases m'
  cases h
  rfl

/-- The exponent of the last digit of the greatest magnitude. -/
@[irreducible] def greatestExponent : Nat := Format.double.limit - Format.double.digits

/-- The unit of the last digit of the greatest magnitude. -/
def greatestUnit : Nat := Nat.pow 2 greatestExponent

theorem greatestUnit_pos : 0 < greatestUnit := zero_lt_two_pow greatestExponent

/-- The magnitudes down from the greatest. -/
def fromGreatest (i : Nat) : Magnitude where
  units := (2 ^ 53 - 1 - i) * greatestUnit
  fits := ⟨2 ^ 53 - 1 - i, greatestExponent, Nat.lt_of_le_of_lt (Nat.sub_le _ i) (by decide), rfl⟩
  bounded := Nat.lt_of_le_of_lt (Nat.mul_le_mul_right _ (Nat.sub_le _ i)) (by decide +kernel)

def greatest : Magnitude := fromGreatest 0

theorem units_greatest : greatest.units + greatestUnit = 2 ^ 53 * greatestUnit := by
  decide +kernel

theorem units_lt (m : Magnitude) : m.units < 2 ^ 53 * greatestUnit := by
  have hlimit : Nat.pow 2 Format.double.limit = 2 ^ 53 * greatestUnit := by decide +kernel
  exact hlimit ▸ m.bounded

/-- In the last binade there are only multiples of its unit. -/
theorem greatestUnit_dvd (h : 2 ^ 52 * greatestUnit ≤ m.units) : greatestUnit ∣ m.units := by
  have hunit := greatestUnit_pos
  have hbounded := m.units_lt
  have hsplit (a : Nat) : 2 ^ (a + greatestExponent) = 2 ^ a * greatestUnit :=
    Nat.pow_add 2 a greatestExponent
  have hlog : m.units.log2 = 52 + greatestExponent := by
    refine (Nat.log2_eq_iff (by omega)).2 ⟨?_, ?_⟩
    · rw [hsplit]
      exact h
    · rw [Nat.add_right_comm, hsplit]
      omega
  have hlast : lastDigit Format.double.digits m.units = greatestExponent := by
    have hdigits : Format.double.digits = 53 := rfl
    rw [lastDigit, hlog]
    omega
  have hdvd := m.fits.two_pow_lastDigit_dvd
  rwa [hlast] at hdvd

/-- Next to the greatest magnitude there are only those a few units down. -/
theorem exists_fromGreatest {j : Nat} (hj : j ≤ 8)
    (h : greatest.units < m.units + j * greatestUnit) : ∃ i < j, m = fromGreatest i := by
  have hbinade : 2 ^ 52 * greatestUnit + 8 * greatestUnit < greatest.units := by decide +kernel
  have hgreatest := units_greatest
  have hbounded := m.units_lt
  have hwide : j * greatestUnit ≤ 8 * greatestUnit := Nat.mul_le_mul_right _ hj
  obtain ⟨c, hc⟩ := greatestUnit_dvd (m := m) (by omega)
  rw [Nat.mul_comm] at hc
  have hlt : c < 2 ^ 53 := by
    refine Nat.lt_of_mul_lt_mul_right (a := greatestUnit) ?_
    omega
  have hgt : 2 ^ 53 < c + j + 1 := by
    refine Nat.lt_of_mul_lt_mul_right (a := greatestUnit) ?_
    rw [Nat.add_mul, Nat.add_mul, Nat.one_mul]
    omega
  refine ⟨2 ^ 53 - 1 - c, by omega, ext_units ?_⟩
  have hback : c = 2 ^ 53 - 1 - (2 ^ 53 - 1 - c) := by omega
  exact hc.trans (congrArg (· * greatestUnit) hback)

theorem two_pow_le_perOne : 2 ^ 52 ≤ perOne := by
  have hone : 2 ^ 52 ≤ one := by decide +kernel
  rw [perOne_eq]
  exact_mod_cast hone

open Json.NumberText in
/-- A whole number within the range of the powers of ten is rounded, and not to less than one. -/
theorem exists_near_ofNat (hn : 0 < n) (hle : n ≤ greatestPower) :
    ∃ m, Binary64.ofNat n = .finite false m ∧ Near 1 m.value n ∧ one ≤ m.units := by
  have hgreatest : greatestPower * one ≤ greatest.units * 1 := by decide +kernel
  obtain ⟨m, hm⟩ := exists_nearest Nat.one_pos
    (Nat.le_trans (Nat.mul_le_mul_right one hle) hgreatest)
  have hround : m.RoundedFrom n := by
    refine roundedFrom_nearest Nat.one_pos hm ?_
    rw [Nat.cast_one, div_one, Nat.cast_mul, perOne_eq]
  refine ⟨m, hm, hround.near (Nat.cast_nonneg n) (by norm_num) ?_,
    Binary64.one_le_units_of_ofNat hn hm⟩
  have hcast : (1 : ℚ) ≤ n := by exact_mod_cast hn
  have hlarge : perOne ≤ n * perOne := le_mul_of_one_le_left perOne_pos.le hcast
  rw [Nat.cast_one, one_mul]
  exact two_pow_le_perOne.trans hlarge

open Json.NumberText in
theorem exists_near_powerOfTen (hk : k ≤ scaleLimit) :
    ∃ p, powerOfTen k = .finite false p ∧ Near 1 p.value (Nat.pow 10 k : Nat) ∧ one ≤ p.units := by
  rw [powerOfTen_eq_ofNat hk]
  exact exists_near_ofNat (zero_lt_pow (by omega) k) (pow_le_greatestPower hk)

end Magnitude

namespace Json.NumberText

open Magnitude

variable {s : Nat} {e : Int}

theorem cast_pow_ten (k : Nat) : ((Nat.pow 10 k : Nat) : ℚ) = 10 ^ (k : Int) := by
  rw [Nat.pow_eq, Nat.cast_pow, zpow_natCast, Nat.cast_ofNat]

theorem pow_ten_mul (e : Int) :
    (10 : ℚ) ^ e * (Nat.pow 10 (-e).toNat : Nat) = (Nat.pow 10 e.toNat : Nat) := by
  have hten : (10 : ℚ) ≠ 0 := by norm_num
  have hexp : e + (-e).toNat = e.toNat := by omega
  rw [cast_pow_ten, cast_pow_ten, ← zpow_add₀ hten, hexp]

theorem cast_pow_ten_pos (k : Nat) : (0 : ℚ) < (Nat.pow 10 k : Nat) :=
  Nat.cast_pos.2 (zero_lt_pow (by omega) k)

theorem exists_scale_down (a : Magnitude) (he : e < 0) (hlow : e.natAbs ≤ scaleLimit) :
    ∃ m w, scale (.finite false a) e = some (.finite false m) ∧ m.RoundedFrom w ∧ 0 ≤ w ∧
      Near 1 w (a.value * 10 ^ e) := by
  obtain ⟨p, hp, hnear, hone⟩ := exists_near_powerOfTen hlow
  have hpos : 0 < p.value := value_pos (Nat.lt_of_lt_of_le Magnitude.zero_lt_one hone)
  obtain ⟨m, hm, hround⟩ := exists_div (a := a) hone
  refine ⟨m, _, ?_, hround, div_nonneg a.value_nonneg hpos.le, ?_⟩
  · rw [scale, if_pos hlow, if_neg (by omega), hp, hm]
  · have hpow : (10 : ℚ) ^ e = ((Nat.pow 10 e.natAbs : Nat) : ℚ)⁻¹ := by
      rw [cast_pow_ten, ← zpow_neg]
      congr 1
      omega
    rw [hpow, ← div_eq_mul_inv]
    exact (Near.refl a.value).div hnear a.value_nonneg a.value_nonneg hpos (cast_pow_ten_pos _)

theorem exists_scale_up {a : Magnitude} (he : 0 ≤ e) (hhigh : e.natAbs ≤ scaleLimit)
    (hbound : a.value * 10 ^ e * slack ≤ greatest.value) :
    ∃ m w, scale (.finite false a) e = some (.finite false m) ∧ m.RoundedFrom w ∧ 0 ≤ w ∧
      Near 1 w (a.value * 10 ^ e) := by
  obtain ⟨p, hp, hnear, hone⟩ := exists_near_powerOfTen hhigh
  have hpow : (10 : ℚ) ^ e = (Nat.pow 10 e.natAbs : Nat) := by
    rw [cast_pow_ten]
    congr 1
    omega
  have hproduct : Near 1 (a.value * p.value) (a.value * 10 ^ e) := by
    rw [hpow]
    have hvalue := a.value_nonneg
    exact (Near.refl a.value).mul hnear hvalue hvalue p.value_nonneg (cast_pow_ten_pos _).le
  have hle := hproduct.le
  rw [pow_one] at hle
  obtain ⟨m, hm, hround⟩ := exists_mul (hle.trans hbound)
  refine ⟨m, _, ?_, hround, mul_nonneg a.value_nonneg p.value_nonneg, hproduct⟩
  rw [scale, if_pos hhigh, if_pos he, hp, hm]
  rfl

/-- Dividing one or more by the greatest power of ten may leave the range of full precision, but not
by far. -/
theorem exists_near_quotient {a p : Magnitude} (ha : one ≤ a.units) (hp : one ≤ p.units)
    (hnear : Near 1 p.value greatestPower) :
    ∃ b, Binary64.finite false a / Binary64.finite false p = .finite false b ∧
      Near 3 b.value (a.value / p.value) := by
  have hone := perOne_pos
  have hpos : 0 < p.value := value_pos (Nat.lt_of_lt_of_le Magnitude.zero_lt_one hp)
  have hvalue : perOne ≤ a.value * perOne := by
    rw [value_mul_perOne, perOne_eq]
    exact_mod_cast ha
  have hlimit : (greatestPower : ℚ) * (2 ^ 52 + 1) ≤ 3 * perOne := by
    have hnat : greatestPower * (2 ^ 52 + 1) ≤ 3 * one := by decide +kernel
    rw [perOne_eq]
    exact_mod_cast hnat
  have hpower : p.value * 2 ^ 52 ≤ greatestPower * (2 ^ 52 + 1) := by
    have hle := hnear.le
    rw [pow_one, slack] at hle
    linarith
  obtain ⟨b, hb, hround⟩ := exists_div (a := a) hp
  refine ⟨b, hb, hround.near (div_nonneg a.value_nonneg hpos.le) (by norm_num) ?_⟩
  rw [div_mul_eq_mul_div, mul_div_assoc', le_div_iff₀ hpos]
  push_cast
  linarith

theorem exists_scale_twice {a : Magnitude} (hone : one ≤ a.units) (hnear : Near 1 a.value s)
    (hlow : -(2 * scaleLimit : Nat) ≤ e) (htwice : e < -scaleLimit) :
    ∃ m w, scale (.finite false a) e = some (.finite false m) ∧ m.RoundedFrom w ∧ 0 ≤ w ∧
      Near 6 w (s * 10 ^ e) := by
  have hvalue := a.value_nonneg
  have hsQ : (0 : ℚ) ≤ s := Nat.cast_nonneg s
  obtain ⟨p, hp, hpower, hpone⟩ := exists_near_powerOfTen (le_refl scaleLimit)
  have hppos : 0 < p.value := value_pos (Nat.lt_of_lt_of_le Magnitude.zero_lt_one hpone)
  have hgreatest : Near 1 p.value greatestPower := by
    unfold greatestPower
    exact hpower
  obtain ⟨b, hb, hquotient⟩ := exists_near_quotient hone hpone hgreatest
  obtain ⟨m, w, hm, hround, hw, hnear'⟩ :=
    exists_scale_down b (e := e + scaleLimit) (by omega) (by omega)
  have hzero : ¬ (Binary64.finite false a).isZero = true := by
    rw [Binary64.isZero_finite_iff]
    exact (Nat.lt_of_lt_of_le Magnitude.zero_lt_one hone).ne'
  have hpten := cast_pow_ten_pos scaleLimit
  have hfirst := hquotient.trans (hnear.div hpower hvalue hsQ hppos hpten)
  have hsecond := hfirst.mul (.refl (10 ^ (e + scaleLimit))) b.value_nonneg
    (div_nonneg hsQ hpten.le) (by positivity) (by positivity)
  have hback : s / (Nat.pow 10 scaleLimit : Nat) * (10 : ℚ) ^ (e + scaleLimit) =
      s * 10 ^ e := by
    rw [zpow_add₀ (by norm_num), ← cast_pow_ten]
    field_simp
  rw [hback] at hsecond
  refine ⟨m, w, ?_, hround, hw, hnear'.trans hsecond⟩
  rw [scale, if_neg (by omega), if_neg hzero, if_neg (by omega), hp, hb, hm]

/-- Scaling in range gives one rounding of a value near the exact one. -/
theorem exists_scale (hs : 0 < s) (hword : s ≤ countLimit) (hlow : -(2 * scaleLimit : Nat) ≤ e)
    (hhigh : e ≤ scaleLimit) (hbound : 0 ≤ e → s * 10 ^ e * slack ^ 2 ≤ greatest.value) :
    ∃ m w, scale (.ofNat s) e = some (.finite false m) ∧ m.RoundedFrom w ∧ 0 ≤ w ∧
      Near 6 w (s * 10 ^ e) := by
  have hcount : countLimit ≤ greatestPower := by decide +kernel
  obtain ⟨a, ha, hnear, hone⟩ := exists_near_ofNat hs (Nat.le_trans hword hcount)
  have hvalue := a.value_nonneg
  have hsQ : (0 : ℚ) ≤ s := Nat.cast_nonneg s
  have hpow : (0 : ℚ) ≤ 10 ^ e := by positivity
  have hscaled : Near 1 (a.value * 10 ^ e) (s * 10 ^ e) :=
    hnear.mul (.refl _) hvalue hsQ hpow hpow
  have hexact : (0 : ℚ) ≤ s * 10 ^ e := mul_nonneg hsQ hpow
  rw [ha]
  by_cases hpos : 0 ≤ e
  · have hle : a.value * 10 ^ e * slack ≤ greatest.value := by
      calc a.value * 10 ^ e * slack ≤ s * 10 ^ e * slack ^ 1 * slack :=
            mul_le_mul_of_nonneg_right hscaled.le slack_pos.le
        _ = s * 10 ^ e * slack ^ 2 := by ring
        _ ≤ greatest.value := hbound hpos
    obtain ⟨m, w, hm, hround, hw, hnear'⟩ := exists_scale_up hpos (by omega) hle
    exact ⟨m, w, hm, hround, hw, (hnear'.trans hscaled).mono hw hexact (by omega)⟩
  · by_cases honce : e.natAbs ≤ scaleLimit
    · obtain ⟨m, w, hm, hround, hw, hnear'⟩ := exists_scale_down a (by omega) honce
      exact ⟨m, w, hm, hround, hw, (hnear'.trans hscaled).mono hw hexact (by omega)⟩
    · exact exists_scale_twice hone hnear hlow (by omega)

end Json.NumberText

end Ratchet
