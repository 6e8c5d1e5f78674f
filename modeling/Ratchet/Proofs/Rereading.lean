import Ratchet.Proofs.JsonDocument
import Ratchet.Proofs.Scaling
import Ratchet.Report.Reader

/-!
# A number that is written and read again

`Binary64.reread?` is what a number of a document reads as. Written is the shortest decimal that
rounds to the number, and read is one rounding of a value near that decimal: so every finite number
reads as a finite one that has its sign and is close to it (`Binary64.exists_reread`). It reads as
itself if the decimal is short (`Binary64.reread?_of_short`), but not always.
-/

namespace Ratchet

namespace Magnitude

/-- Apart by a least unit and one part in `2 ^ 48` at most. -/
structure CloseTo (m' m : Magnitude) : Prop where
  le : 2 ^ 48 * m'.units ≤ 2 ^ 48 * (m.units + 1) + m.units
  ge : 2 ^ 48 * m.units ≤ 2 ^ 48 * (m'.units + 1) + m.units

instance (m' m : Magnitude) : Decidable (m'.CloseTo m) :=
  decidable_of_iff (2 ^ 48 * m'.units ≤ 2 ^ 48 * (m.units + 1) + m.units ∧
    2 ^ 48 * m.units ≤ 2 ^ 48 * (m'.units + 1) + m.units)
    ⟨fun h => ⟨h.1, h.2⟩, fun h => ⟨h.le, h.ge⟩⟩

variable {m m' : Magnitude} {v w : ℚ}

/-- How far a value and the magnitude that it rounds to are apart, in least units. -/
theorem RoundedFrom.bounds (h : m.RoundedFrom v) (hv : 0 ≤ v) :
    (m.units : ℚ) ≤ v * perOne * (1 + 1 / 2 ^ 53) + 1 / 2 ∧
      v * perOne * (1 - 1 / 2 ^ 53) ≤ m.units + 1 / 2 := by
  have hunits : 0 ≤ v * perOne := mul_nonneg hv perOne_pos.le
  obtain ⟨hhigh, hlow⟩ := abs_sub_le_iff.1 h
  have hmax : max (1 / 2) (v * perOne / 2 ^ 53) ≤ 1 / 2 + v * perOne / 2 ^ 53 :=
    max_le_add_of_nonneg (by norm_num) (by positivity)
  constructor <;> linarith

theorem mul_perOne_le (h : w ≤ v * slack ^ 7) (hv : 0 ≤ v) :
    w * perOne ≤ v * perOne * (1 + 1 / 2 ^ 49) := by
  have hslack : slack ^ 7 ≤ 1 + 1 / 2 ^ 49 := by norm_num [slack]
  calc w * perOne ≤ v * slack ^ 7 * perOne := mul_le_mul_of_nonneg_right h perOne_pos.le
    _ = v * perOne * slack ^ 7 := by ring
    _ ≤ v * perOne * (1 + 1 / 2 ^ 49) :=
        mul_le_mul_of_nonneg_left hslack (mul_nonneg hv perOne_pos.le)

/-- Magnitudes are close if they were rounded from values near each other. -/
theorem CloseTo.of_near (hm : m.RoundedFrom v) (hm' : m'.RoundedFrom w) (hnear : Near 7 w v)
    (hv : 0 ≤ v) (hw : 0 ≤ w) (hpos : 0 < m.units) : m'.CloseTo m := by
  obtain ⟨hhigh, hlow⟩ := hm.bounds hv
  obtain ⟨hhigh', hlow'⟩ := hm'.bounds hw
  have hone : (1 : ℚ) ≤ m.units := by exact_mod_cast hpos
  have hle := mul_perOne_le hnear.le hv
  have hge := mul_perOne_le hnear.ge hw
  constructor
  · have hbound : (2 : ℚ) ^ 48 * m'.units ≤ 2 ^ 48 * (m.units + 1) + m.units := by
      linarith
    exact_mod_cast hbound
  · have hbound : (2 : ℚ) ^ 48 * m.units ≤ 2 ^ 48 * (m'.units + 1) + m.units := by
      linarith
    exact_mod_cast hbound

end Magnitude

namespace Binary64

/-- Finite numbers of one sign with close magnitudes. -/
def CloseTo : Binary64 → Binary64 → Prop
  | finite neg m, finite neg' m' => neg = neg' ∧ m.CloseTo m'
  | _, _ => False

instance : DecidableRel CloseTo
  | finite neg m, finite neg' m' => inferInstanceAs (Decidable (neg = neg' ∧ m.CloseTo m'))
  | finite _ _, nan | finite _ _, inf _ | nan, _ | inf _, _ => inferInstanceAs (Decidable False)

end Binary64

namespace Json.NumberText

open Magnitude

variable {t : NumberText} {m : Magnitude} {neg sign : Bool} {s d : Nat}

def decimal (t : NumberText) : ℚ := t.significand * 10 ^ t.power

theorem decimal_nonneg (t : NumberText) : 0 ≤ t.decimal := by
  unfold decimal
  positivity

theorem roundedFrom_decimal (hm : Binary64.ofDecimal neg t.toDecimal = .finite sign m)
    (hpos : 0 < m.units) : m.RoundedFrom t.decimal := by
  have htiny : ¬(t.toDecimal.coeff = 0 ∨ t.toDecimal.size < -Decimal.horizon) := by
    intro htiny
    rw [Binary64.ofDecimal_of_tiny neg htiny] at hm
    cases hm
    exact absurd hpos (by decide)
  have hcoeff : t.toDecimal.coeff ≠ 0 := fun hzero => htiny (.inl hzero)
  have hhuge : ¬Decimal.horizon < t.toDecimal.size := by
    intro hhuge
    rw [Binary64.ofDecimal_of_huge neg hcoeff hhuge] at hm
    cases hm
  rw [ofDecimal_eq_nearest neg fun _ => ⟨by omega, by omega⟩] at hm
  refine roundedFrom_nearest (zero_lt_pow (by omega) _) hm ?_
  have hd := cast_pow_ten_pos (-t.power).toNat
  unfold decimal toDecimal
  dsimp only
  rw [eq_div_iff hd.ne', Nat.cast_mul, Nat.cast_mul, ← pow_ten_mul t.power, perOne_eq]
  ring

theorem taken_eq (s d : Nat) (e : Int) : (s : ℚ) * 10 ^ (e + d) = s * 10 ^ d * 10 ^ e := by
  rw [zpow_add₀ (by norm_num), zpow_natCast]
  ring

theorem taken_le (h : Truncates s d t.significand) : s * 10 ^ (t.power + d) ≤ t.decimal := by
  have hle : (s : ℚ) * 10 ^ d ≤ t.significand := by exact_mod_cast h.le
  rw [taken_eq]
  exact mul_le_mul_of_nonneg_right hle (by positivity)

/-- The digits that are taken make up most of the decimal. -/
theorem decimal_le (h : Truncates s d t.significand) :
    t.decimal ≤ s * 10 ^ (t.power + d) * slack := by
  have hle : (t.significand : ℚ) ≤ s * 10 ^ d * slack := by
    rcases h.full with rfl | hfull
    · rw [← h.eq, pow_zero, mul_one]
      exact le_mul_of_one_le_right (Nat.cast_nonneg s) one_le_slack
    · have hlt : (t.significand : ℚ) ≤ (s + 1) * 10 ^ d := by exact_mod_cast h.lt.le
      have hs : (2 : ℚ) ^ 60 ≤ s := by exact_mod_cast hfull
      have hnext : (s : ℚ) + 1 ≤ s * slack := by
        unfold slack
        linarith
      calc (t.significand : ℚ) ≤ (s + 1) * 10 ^ d := hlt
        _ ≤ s * slack * 10 ^ d := mul_le_mul_of_nonneg_right hnext (by positivity)
        _ = s * 10 ^ d * slack := by ring
  calc t.decimal ≤ s * 10 ^ d * slack * 10 ^ t.power :=
        mul_le_mul_of_nonneg_right hle (by positivity)
    _ = s * 10 ^ (t.power + d) * slack := by
        rw [taken_eq]
        ring

theorem near_of_truncates (h : Truncates s d t.significand) :
    Near 1 (s * 10 ^ (t.power + d)) t.decimal := by
  constructor
  · rw [pow_one]
    exact (taken_le h).trans (le_mul_of_one_le_right t.decimal_nonneg one_le_slack)
  · rw [pow_one]
    exact decimal_le h

theorem cast_greatestPower : (greatestPower : ℚ) = 10 ^ (scaleLimit : Int) := by
  unfold greatestPower
  exact cast_pow_ten scaleLimit

/-- No power of ten that scales a decimal in range is above the greatest one. -/
theorem le_scaleLimit {e : Int} (hs : 0 < s) (h : s * 10 ^ e * perOne ≤ 3 * greatest.units) :
    e ≤ scaleLimit := by
  refine Int.not_lt.1 fun hhigh => ?_
  have hten : (10 : ℚ) ≠ 0 := by norm_num
  have hlimit : 3 * (greatest.units : ℚ) < 10 * greatestPower * perOne := by
    have hnat : 3 * greatest.units < 10 * greatestPower * one := by decide +kernel
    rw [perOne_eq]
    exact_mod_cast hnat
  have hpow : (10 : ℚ) * greatestPower ≤ 10 ^ e := by
    have hmore : (1 : ℚ) ≤ 10 ^ (e - (scaleLimit + 1 : Nat)) :=
      one_le_zpow₀ (by norm_num) (by push_cast; omega)
    calc (10 : ℚ) * greatestPower = 1 * (10 : ℚ) ^ ((scaleLimit + 1 : Nat) : Int) := by
          rw [cast_greatestPower, Nat.cast_succ, zpow_add_one₀ hten]
          ring
      _ ≤ 10 ^ (e - (scaleLimit + 1 : Nat)) * 10 ^ ((scaleLimit + 1 : Nat) : Int) :=
          mul_le_mul_of_nonneg_right hmore (by positivity)
      _ = 10 ^ e := by rw [← zpow_add₀ hten, Int.sub_add_cancel]
  have hsQ : (1 : ℚ) ≤ s := by exact_mod_cast hs
  have hscaled : (10 : ℚ) * greatestPower * perOne ≤ s * 10 ^ e * perOne :=
    mul_le_mul_of_nonneg_right (hpow.trans (le_mul_of_one_le_left (by positivity) hsQ))
      perOne_pos.le
  exact absurd (hlimit.trans_le hscaled) (not_lt.2 h)

/-- Two steps down are enough for what does not vanish. -/
theorem le_of_not_vanishing {e : Int} (hword : s < UInt64.size)
    (h : 1 ≤ 8 * (s * 10 ^ e * perOne)) : -(2 * scaleLimit : Nat) ≤ e := by
  refine Int.not_lt.1 fun hlow => ?_
  have hten : (10 : ℚ) ≠ 0 := by norm_num
  have hlimit : 8 * (UInt64.size * perOne) < (greatestPower : ℚ) * greatestPower := by
    have hnat : 8 * (UInt64.size * one) < greatestPower * greatestPower := by decide +kernel
    rw [perOne_eq]
    exact_mod_cast hnat
  have hpow : (10 : ℚ) ^ e * (greatestPower * greatestPower) ≤ 1 := by
    have hsquare : (greatestPower : ℚ) * greatestPower = 10 ^ ((2 * scaleLimit : Nat) : Int) := by
      rw [cast_greatestPower, ← zpow_add₀ hten, Nat.two_mul, Nat.cast_add]
    rw [hsquare, ← zpow_add₀ hten]
    exact zpow_le_one_of_nonpos₀ (by norm_num) (by omega)
  have hsQ : (s : ℚ) ≤ UInt64.size := by exact_mod_cast hword.le
  have he : (0 : ℚ) < 10 ^ e := by positivity
  have hless : 8 * (s * 10 ^ e * perOne) < 1 := by
    calc 8 * (s * 10 ^ e * perOne) = 8 * (s * perOne) * 10 ^ e := by ring
      _ ≤ 8 * (UInt64.size * perOne) * 10 ^ e := by
          have hone := perOne_pos.le
          gcongr
      _ < greatestPower * greatestPower * 10 ^ e := mul_lt_mul_of_pos_right hlimit he
      _ = 10 ^ e * (greatestPower * greatestPower) := mul_comm _ _
      _ ≤ 1 := hpow
  exact absurd hless (not_lt.2 h)

/-! ## Values -/

/-- Some units below the greatest magnitude there is room for two more roundings. -/
theorem mul_slack_le_greatest {v : ℚ} (h : m.RoundedFrom v) (hv : 0 ≤ v)
    (hroom : m.units + 6 * greatestUnit ≤ greatest.units) : v * slack ^ 2 ≤ greatest.value := by
  have hunits : 0 ≤ v * perOne := mul_nonneg hv perOne_pos.le
  have hslack : slack ^ 2 ≤ 1 + 33 / 8 / 2 ^ 53 := by norm_num [slack]
  have hunit : (1 : ℚ) ≤ greatestUnit := by exact_mod_cast greatestUnit_pos
  have hgreatest : (greatest.units : ℚ) + greatestUnit = 2 ^ 53 * greatestUnit := by
    exact_mod_cast units_greatest
  have hroomQ : (m.units : ℚ) + 6 * greatestUnit ≤ greatest.units := by exact_mod_cast hroom
  obtain ⟨-, hlow⟩ := h.bounds hv
  rw [value, le_div_iff₀ perOne_pos]
  calc v * slack ^ 2 * perOne = v * perOne * slack ^ 2 := by ring
    _ ≤ v * perOne * (1 + 33 / 8 / 2 ^ 53) := mul_le_mul_of_nonneg_left hslack hunits
    _ ≤ greatest.units := by linarith

/-- A written number reads as one close to the magnitude that its decimal rounds to, unless that is
among the very greatest. -/
theorem exists_value (h : t.Sized) (hround : m.RoundedFrom t.decimal) (hpos : 0 < m.units)
    (hroom : m.units + 6 * greatestUnit ≤ greatest.units) :
    ∃ m', t.value? = some (withSign t.neg (.finite false m')) ∧ m'.CloseTo m := by
  obtain ⟨s, d, htruncates, hvalue⟩ := value?_eq h
  have hdecimal := t.decimal_nonneg
  have hone := perOne_pos.le
  obtain ⟨hhigh, hlow⟩ := hround.bounds hdecimal
  have hunits : (1 : ℚ) ≤ m.units := by exact_mod_cast hpos
  have hgreatest : (m.units : ℚ) ≤ greatest.units := by exact_mod_cast (by omega)
  have hbelow : s * 10 ^ (t.power + d) * perOne ≤ t.decimal * perOne :=
    mul_le_mul_of_nonneg_right (taken_le htruncates) hone
  have habove : t.decimal * perOne ≤ s * 10 ^ (t.power + d) * slack * perOne :=
    mul_le_mul_of_nonneg_right (decimal_le htruncates) hone
  -- A magnitude above zero is not rounded from zero, nor from what scaling makes vanish.
  have hs : 0 < s := by
    refine Nat.pos_of_ne_zero fun hzero => ?_
    rw [hzero, Nat.cast_zero, zero_mul, zero_mul, zero_mul] at habove
    linarith
  have hup : t.power + d ≤ scaleLimit := le_scaleLimit hs (by linarith)
  have hdown : -(2 * scaleLimit : Nat) ≤ t.power + d := by
    refine le_of_not_vanishing htruncates.word ?_
    unfold slack at habove
    linarith
  have hbound : s * 10 ^ (t.power + d) * slack ^ 2 ≤ greatest.value :=
    (mul_le_mul_of_nonneg_right (taken_le htruncates) (pow_nonneg slack_pos.le 2)).trans
      (mul_slack_le_greatest hround hdecimal hroom)
  obtain ⟨m', w, hscale, hround', hw, hnear⟩ :=
    exists_scale hs htruncates.word.le hdown hup fun _ => hbound
  refine ⟨m', ?_, .of_near hround hround' (hnear.trans (near_of_truncates htruncates)) hdecimal hw
    hpos⟩
  rw [hvalue, hscale, Option.map_some]

/-- The sign of a number has no part in its digits. -/
theorem ofMagnitude_eq (neg : Bool) (m : Magnitude) :
    ofMagnitude neg m = { ofMagnitude false m with neg } := by
  unfold ofMagnitude ofDecimal
  dsimp only
  split
  · split
    · rfl
    · split <;> rfl
  · rfl

theorem neg_ofMagnitude (neg : Bool) (m : Magnitude) : (ofMagnitude neg m).neg = neg := by
  rw [ofMagnitude_eq]

theorem value?_ofMagnitude (neg : Bool) (m : Magnitude) :
    (ofMagnitude neg m).value? = (ofMagnitude false m).value?.map (withSign neg) := by
  have hneg := neg_ofMagnitude false m
  rw [ofMagnitude_eq]
  unfold value?
  simp only [Option.map_map, hneg]
  rfl

/-- Among the very greatest, a number is scaled without leaving the range all the same. -/
theorem closeTo_fromGreatest : ∀ i < 6, ∃ y ∈ (ofMagnitude false (fromGreatest i)).value?,
    y.CloseTo (.finite false (fromGreatest i)) := by
  decide +kernel

theorem value?_zero : (ofMagnitude false .zero).value? = some 0 := by
  decide +kernel

theorem exists_value_ofMagnitude (m : Magnitude) :
    ∃ m', (ofMagnitude false m).value? = some (.finite false m') ∧ m'.CloseTo m := by
  by_cases hzero : m.units = 0
  · refine ⟨.zero, ?_, ?_⟩
    · rw [eq_zero_of_units hzero]
      exact value?_zero
    · constructor <;> rw [hzero] <;> decide
  · by_cases hroom : m.units + 6 * greatestUnit ≤ greatest.units
    · have hround := roundedFrom_decimal (ofDecimal_toDecimal false m) (by omega)
      obtain ⟨m', hvalue, hclose⟩ :=
        exists_value (sized_ofMagnitude false m) hround (by omega) hroom
      refine ⟨m', ?_, hclose⟩
      rw [hvalue, neg_ofMagnitude]
      rfl
    · obtain ⟨i, hi, rfl⟩ := exists_fromGreatest (by omega) (Nat.lt_of_not_le hroom)
      obtain ⟨y, hvalue, hclose⟩ := closeTo_fromGreatest i hi
      cases y with
      | nan | inf => cases hclose
      | finite neg m' =>
        obtain ⟨rfl, hclose⟩ := hclose
        exact ⟨m', hvalue, hclose⟩

end Json.NumberText

/-! ## Reading back -/

namespace Binary64

variable {x : Binary64}

/-- What a number of a document is read as. -/
def reread? (x : Binary64) : Option Binary64 := (Json.writtenNumber x).number?

theorem reread?_finite (neg : Bool) (m : Magnitude) :
    (finite neg m).reread? = (Json.NumberText.ofMagnitude neg m).value? := rfl

theorem exists_reread (h : x.isFinite = true) : ∃ y, x.reread? = some y ∧ y.CloseTo x := by
  obtain ⟨neg, m, rfl, -⟩ := Json.writtenNumber_of_isFinite h
  obtain ⟨m', hvalue, hclose⟩ := Json.NumberText.exists_value_ofMagnitude m
  refine ⟨.finite neg m', ?_, rfl, hclose⟩
  rw [reread?_finite, Json.NumberText.value?_ofMagnitude, hvalue]
  cases neg <;> rfl

/-- Written with a significand of at most `2 ^ 53` and at most the twenty-second power of ten. -/
def Short : Binary64 → Prop
  | finite neg m =>
    (Json.NumberText.ofMagnitude neg m).significand ≤ 2 ^ 53 ∧
      (Json.NumberText.ofMagnitude neg m).power.natAbs ≤ 22
  | _ => False

instance : DecidablePred Short
  | finite neg m => inferInstanceAs (Decidable
      ((Json.NumberText.ofMagnitude neg m).significand ≤ 2 ^ 53 ∧
        (Json.NumberText.ofMagnitude neg m).power.natAbs ≤ 22))
  | nan | inf _ => inferInstanceAs (Decidable False)

theorem reread?_of_short (h : x.Short) : x.reread? = some x := by
  cases x with
  | nan | inf => cases h
  | finite neg m =>
    have hsized := Json.NumberText.sized_ofMagnitude neg m
    rw [reread?_finite, Json.NumberText.value?_of_short hsized h.1 h.2,
      Json.NumberText.neg_ofMagnitude, Json.NumberText.ofDecimal_toDecimal]

end Binary64

end Ratchet
