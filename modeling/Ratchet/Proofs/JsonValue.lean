import Mathlib.Algebra.Ring.Nat
import Ratchet.Proofs.Bounds
import Ratchet.Proofs.JsonNumber

/-!
# The value of a written number

A written number stands for a decimal: its digits as one whole number, the significand, times a
power of ten. Its value is found in two steps. Digits are taken until the significand outgrows a
machine word, which leaves out the last ones at most (`NumberText.truncates_accumulate`), and what
was taken is scaled (`NumberText.value?_eq`).

Scaling rounds the significand, the power of ten and their product or quotient. A significand that
double precision holds and a power of ten that it holds leave only the last of these, so the value
of a short number is the nearest one (`NumberText.value?_of_short`). In general it is not.
-/

namespace Ratchet

open Numeral (AllDigits)

variable {cs : List Char}

/-- The number that a run of digits writes behind the digits of another. -/
def ofDigitsFrom (n : Nat) (cs : List Char) : Nat :=
  cs.foldl (fun n c => 10 * n + (c.toNat - '0'.toNat)) n

theorem ofDigits_append (cs cs' : List Char) :
    ofDigits (cs ++ cs') = ofDigitsFrom (ofDigits cs) cs' := List.foldl_append

theorem digit_le {c : Char} (h : c.isDigit = true) : c.toNat - '0'.toNat ≤ 9 := by
  have hrange := Char.isDigit_iff_toNat.1 h
  have hzero : '0'.toNat = 48 := rfl
  have hnine : '9'.toNat = 57 := rfl
  omega

theorem le_ofDigitsFrom (n : Nat) (cs : List Char) : n * 10 ^ cs.length ≤ ofDigitsFrom n cs := by
  induction cs generalizing n with
  | nil => simp [ofDigitsFrom]
  | cons c rest ih =>
    have hstep : 10 * n * 10 ^ rest.length ≤
        (10 * n + (c.toNat - '0'.toNat)) * 10 ^ rest.length :=
      Nat.mul_le_mul_right _ (Nat.le_add_right _ _)
    calc n * 10 ^ (c :: rest).length = 10 * n * 10 ^ rest.length := by
          rw [List.length_cons, Nat.pow_succ]
          ac_rfl
      _ ≤ (10 * n + (c.toNat - '0'.toNat)) * 10 ^ rest.length := hstep
      _ ≤ ofDigitsFrom n (c :: rest) := ih _

theorem ofDigitsFrom_lt (n : Nat) (h : AllDigits cs) :
    ofDigitsFrom n cs < (n + 1) * 10 ^ cs.length := by
  induction cs generalizing n with
  | nil => simp [ofDigitsFrom]
  | cons c rest ih =>
    have hdigit := digit_le (h c List.mem_cons_self)
    have hrest : AllDigits rest := fun d hd => h d (List.mem_cons_of_mem _ hd)
    calc ofDigitsFrom n (c :: rest)
        < (10 * n + (c.toNat - '0'.toNat) + 1) * 10 ^ rest.length := ih _ hrest
      _ ≤ 10 * (n + 1) * 10 ^ rest.length := Nat.mul_le_mul_right _ (by omega)
      _ = (n + 1) * 10 ^ (c :: rest).length := by
          rw [List.length_cons, Nat.pow_succ]
          ac_rfl

theorem Fits.mul_two_pow {p n : Nat} (h : Fits p n) (e : Nat) : Fits p (n * Nat.pow 2 e) := by
  obtain ⟨k, j, hk, rfl⟩ := h
  refine ⟨k, j + e, hk, ?_⟩
  rw [Nat.mul_assoc]
  exact congrArg (k * ·) (Nat.pow_add 2 j e).symm

namespace Json.NumberText

/-- All but the last `d` digits of a number, as many as a machine word holds. -/
structure Truncates (s d n : Nat) : Prop where
  le : s * 10 ^ d ≤ n
  lt : n < (s + 1) * 10 ^ d
  word : s < UInt64.size
  full : d = 0 ∨ 2 ^ 60 ≤ s

theorem Truncates.eq {s n : Nat} (h : Truncates s 0 n) : s = n := by
  have hle := h.le
  have hlt := h.lt
  omega

theorem truncates_accumulate {s : Nat} (hs : s < UInt64.size) (h : AllDigits cs) :
    Truncates (accumulate s cs).1 (accumulate s cs).2 (ofDigitsFrom s cs) := by
  induction cs generalizing s with
  | nil =>
    constructor
    · simp [accumulate, ofDigitsFrom]
    · simp [accumulate, ofDigitsFrom]
    · exact hs
    · exact .inl rfl
  | cons c rest ih =>
    have hrest : AllDigits rest := fun d hd => h d (List.mem_cons_of_mem _ hd)
    unfold accumulate
    dsimp only
    split
    · next hnext => exact ih hnext hrest
    · next hnext =>
      have hdigit := digit_le (h c List.mem_cons_self)
      refine ⟨le_ofDigitsFrom s (c :: rest), ofDigitsFrom_lt s h, hs, .inr ?_⟩
      have hsize : UInt64.size = 2 ^ 64 := rfl
      omega

theorem accumulate_of_lt {s : Nat} (h : ofDigitsFrom s cs < UInt64.size) :
    accumulate s cs = (ofDigitsFrom s cs, 0) := by
  induction cs generalizing s with
  | nil => rfl
  | cons c rest ih =>
    have hle : 10 * s + (c.toNat - '0'.toNat) ≤ ofDigitsFrom s (c :: rest) :=
      Nat.le_trans (Nat.le_mul_of_pos_right _ (Nat.pow_pos (by omega)))
        (le_ofDigitsFrom _ rest)
    unfold accumulate
    dsimp only
    rw [if_pos (Nat.lt_of_le_of_lt hle h)]
    exact ih h

theorem accumulate_le_length (s : Nat) (cs : List Char) : (accumulate s cs).2 ≤ cs.length := by
  induction cs generalizing s with
  | nil => exact Nat.le_refl _
  | cons c rest ih =>
    unfold accumulate
    dsimp only
    split
    · exact Nat.le_succ_of_le (ih _)
    · exact Nat.le_refl _

/-! ## The decimal of a written number -/

/-- The digits of a number as one whole number. -/
def significand (t : NumberText) : Nat := ofDigits (t.whole ++ t.fraction)

def writtenExponent (t : NumberText) : Int :=
  match t.exponent with
  | none => 0
  | some (neg, ds) => Binary64.signed neg (ofDigits ds)

/-- The power of ten that goes with the significand. -/
def power (t : NumberText) : Int := t.writtenExponent - t.fraction.length

def toDecimal (t : NumberText) : Decimal := ⟨t.significand, t.power⟩

/-- A number whose whole part fits a machine word and whose exponent is taken at its value. -/
structure Sized (t : NumberText) : Prop where
  wellFormed : t.WellFormed
  whole : ofDigits t.whole < UInt64.size
  exponent : t.writtenExponent.natAbs ≤ exponentLimit

theorem magnitude_eq {t : NumberText} (h : t.writtenExponent.natAbs ≤ exponentLimit) (s : Nat)
    (implied : Int) :
    magnitude s implied t.exponent = scale (.ofNat s) (t.writtenExponent + implied) := by
  unfold writtenExponent at h ⊢
  cases he : t.exponent with
  | none => simp only [magnitude, Int.zero_add]
  | some e =>
    obtain ⟨neg, ds⟩ := e
    rw [he] at h
    simp only [Binary64.natAbs_signed] at h
    simp only [magnitude, if_neg (Nat.not_lt.2 h)]
    refine congrArg (scale _) ?_
    cases neg
    · simp [Binary64.signed]; omega
    · simp [Binary64.signed]; omega

/-- The sign goes to the value at the end. -/
def withSign (neg : Bool) (x : Binary64) : Binary64 := if neg then -x else x

/-- A value comes from the digits that are taken, scaled for those that are left. -/
theorem value?_eq {t : NumberText} (h : t.Sized) :
    ∃ s d, Truncates s d t.significand ∧
      t.value? = (scale (.ofNat s) (t.power + d)).map (withSign t.neg) := by
  have hwhole : accumulate 0 t.whole = (ofDigits t.whole, 0) := accumulate_of_lt h.whole
  have htruncates := truncates_accumulate h.whole h.wellFormed.fraction
  have hleft := accumulate_le_length (ofDigits t.whole) t.fraction
  rw [← ofDigits_append] at htruncates
  refine ⟨_, _, htruncates, ?_⟩
  unfold value?
  simp only [hwhole, magnitude_eq h.exponent]
  have hpower : t.writtenExponent + ((0 : Nat) -
        ((t.fraction.length - (accumulate (ofDigits t.whole) t.fraction).2 : Nat) : Int)) =
      t.power + (accumulate (ofDigits t.whole) t.fraction).2 := by
    unfold power
    omega
  rw [hpower]
  rfl

/-! ## Numbers of documents -/

theorem ofDigits_digits_zeros (c k : Nat) :
    ofDigits (digits c ++ List.replicate k '0') = c * Nat.pow 10 k := by
  rw [ofDigits_append_zeros, ofDigits_digits]

/-- What is written for a decimal stands for it, with zeros behind it where there is a point. -/
theorem toDecimal_ofDecimal (neg : Bool) (x : Decimal) :
    ∃ j, (ofDecimal neg x).toDecimal = x.padded j := by
  unfold ofDecimal
  dsimp only
  split
  · split
    · next hexp =>
      refine ⟨x.exponent.toNat + 1, ?_⟩
      have hdigits : digits x.coeff ++ List.replicate x.exponent.toNat '0' ++ ['0'] =
          digits x.coeff ++ List.replicate (x.exponent.toNat + 1) '0' := by
        rw [List.append_assoc, ← List.replicate_succ']
      have hpower : (0 : Int) - (1 : Nat) = x.exponent - ((x.exponent.toNat + 1 : Nat) : Int) := by
        omega
      unfold toDecimal significand power Decimal.padded writtenExponent
      simp only [hdigits, ofDigits_digits_zeros, List.length_singleton, hpower]
    · refine ⟨0, ?_⟩
      rw [Decimal.padded_zero]
      split
      · next hin =>
        have hpower : (0 : Int) - ((digits x.coeff).length -
            ((digits x.coeff).length - (-x.exponent).toNat) : Nat) = x.exponent := by omega
        simp only [toDecimal, significand, power, writtenExponent, List.take_append_drop,
          ofDigits_digits, List.length_drop, hpower]
      · next hout =>
        have hpower : (0 : Int) - ((-x.exponent).toNat - (digits x.coeff).length +
            (digits x.coeff).length : Nat) = x.exponent := by omega
        have hdigits : ofDigits (['0'] ++ (List.replicate
            ((-x.exponent).toNat - (digits x.coeff).length) '0' ++ digits x.coeff)) = x.coeff := by
          refine (ofDigits_zeros_append 1 _).trans ?_
          rw [ofDigits_zeros_append, ofDigits_digits]
        simp only [toDecimal, significand, power, writtenExponent, hdigits, List.length_append,
          List.length_replicate, hpower]
  · refine ⟨0, ?_⟩
    rw [Decimal.padded_zero]
    have hlength : 0 < (digits x.coeff).length := List.length_pos_iff.2 (digits_ne_nil _)
    have hpower : x.exponent + (digits x.coeff).length - 1 -
        ((digits x.coeff).length - 1 : Nat) = x.exponent := by omega
    simp only [toDecimal, significand, power, writtenExponent, List.take_append_drop,
      ofDigits_digits, Layout.signed_natAbs, List.length_drop, hpower]

theorem ofDigits_lt_size {cs : List Char} (h : AllDigits cs) (hlength : cs.length ≤ 16) :
    ofDigits cs < UInt64.size := by
  have hlimit : (0 + 1) * 10 ^ 16 < UInt64.size := by decide
  calc ofDigits cs < (0 + 1) * 10 ^ cs.length := ofDigitsFrom_lt 0 h
    _ ≤ (0 + 1) * 10 ^ 16 := Nat.mul_le_mul_left _ (Nat.pow_le_pow_right (by omega) hlength)
    _ < UInt64.size := hlimit

theorem size_shortest (m : Magnitude) :
    -Decimal.horizon ≤ (m.shortest .even).size ∧ (m.shortest .even).size ≤ Decimal.horizon := by
  have hread := m.ofDecimal_shortest .even
  have hzero : (m.shortest .even).coeff = 0 ∨ (m.shortest .even).size < -Decimal.horizon →
      m.shortest .even = ⟨0, 0⟩ := by
    intro htiny
    rw [Binary64.ofDecimal_of_tiny false htiny] at hread
    cases hread
    exact shortest_zero
  have hsize : (⟨0, 0⟩ : Decimal).size = 1 := by decide +kernel
  by_cases hcoeff : (m.shortest .even).coeff = 0
  · rw [hzero (.inl hcoeff), hsize]
    decide
  · constructor
    · refine Int.not_lt.1 fun hlow => hcoeff ?_
      rw [hzero (.inr hlow)]
    · refine Int.not_lt.1 fun hhigh => ?_
      rw [Binary64.ofDecimal_of_huge false hcoeff hhigh] at hread
      cases hread

/-- Neither the digits before a point nor an exponent are too many in the text of a magnitude. -/
theorem sized_ofMagnitude (neg : Bool) (m : Magnitude) : (ofMagnitude neg m).Sized where
  wellFormed := wellFormed_ofMagnitude neg m
  whole := by
    refine ofDigits_lt_size (wellFormed_ofMagnitude neg m).whole.digits ?_
    unfold ofMagnitude ofDecimal
    dsimp only
    split
    · next hpositional =>
      have hlead := (of_decide_eq_true hpositional).2
      split
      · simp only [List.length_append, List.length_replicate]
        omega
      · split
        · simp only [List.length_take]
          omega
        · simp
    · simp only [List.length_take]
      omega
  exponent := by
    obtain ⟨hlow, hhigh⟩ := size_shortest m
    simp only [Decimal.size, Decimal.horizon, digitCount] at hlow hhigh
    have hlimit : exponentLimit = 2147483647 := rfl
    unfold ofMagnitude ofDecimal
    dsimp only
    split
    · split
      · simp [writtenExponent]
      · split <;> simp [writtenExponent]
    · simp only [writtenExponent, Binary64.natAbs_signed, ofDigits_digits]
      omega

theorem ofDecimal_toDecimal (neg : Bool) (m : Magnitude) :
    Binary64.ofDecimal neg (ofMagnitude neg m).toDecimal = .finite neg m := by
  obtain ⟨j, hj⟩ := toDecimal_ofDecimal neg (m.shortest .even)
  rw [ofMagnitude, hj, Binary64.ofDecimal_padded,
    Binary64.ofDecimal_eq_finite neg (m.ofDecimal_shortest .even)]

theorem withSign_nearest (neg : Bool) (n d : Nat) :
    withSign neg (.nearest false n d) = .nearest neg n d := by
  unfold Binary64.nearest
  cases Magnitude.nearest? n d <;> cases neg <;> rfl

/-- The greatest power of ten that one step scales by. -/
def greatestPower : Nat := Nat.pow 10 scaleLimit

theorem pow_ten_le {k l : Nat} (h : k ≤ l) : Nat.pow 10 k ≤ Nat.pow 10 l :=
  Nat.pow_le_pow_right (by omega) h

theorem pow_le_greatestPower {k : Nat} (hk : k ≤ scaleLimit) : Nat.pow 10 k ≤ greatestPower := by
  unfold greatestPower
  exact pow_ten_le hk

theorem ofNat_of_fits {n : Nat} (h : Fits Format.double.digits n) (hlimit : n ≤ greatestPower) :
    ∃ m, Binary64.ofNat n = .finite false m ∧ m.units = n * Magnitude.one := by
  have hbound : n * Magnitude.one < Nat.pow 2 Format.double.limit :=
    Nat.lt_of_le_of_lt (Nat.mul_le_mul_right _ hlimit) (by decide +kernel)
  have hfits : Fits Format.double.digits (n * Magnitude.one) := by
    unfold Magnitude.one
    exact h.mul_two_pow Format.double.unit
  have hround := Binary64.nearest_units false ⟨_, hfits, hbound⟩ Nat.one_pos
  rw [Nat.mul_one] at hround
  exact ⟨_, hround, rfl⟩

theorem powerOfTen_eq_ofNat {k : Nat} (hk : k ≤ scaleLimit) :
    powerOfTen k = .ofNat (Nat.pow 10 k) := by
  have hlimit : scaleLimit = 308 := rfl
  have hcount : digitCount 1 = 1 := by decide +kernel
  have hsize : (⟨1, k⟩ : Decimal).size = digitCount 1 + k := rfl
  have hhorizon : Decimal.horizon = 400 := rfl
  unfold powerOfTen
  rw [Binary64.ofDecimal_of_quotient false Nat.one_ne_zero (by omega) (by omega)]
  have hneg : (-(k : Int)).toNat = 0 := by omega
  simp only [Int.toNat_natCast, Nat.one_mul, hneg]
  rfl

/-- A decimal within reach is rounded from the quotient that it is. -/
theorem ofDecimal_eq_nearest (neg : Bool) {x : Decimal}
    (hsize : x.coeff ≠ 0 → -Decimal.horizon ≤ x.size ∧ x.size ≤ Decimal.horizon) :
    Binary64.ofDecimal neg x = .nearest neg (x.coeff * Nat.pow 10 x.exponent.toNat * Magnitude.one)
      (Nat.pow 10 (-x.exponent).toNat) := by
  by_cases hx : x.coeff = 0
  · rw [Binary64.ofDecimal_of_tiny neg (.inl hx), hx, Nat.zero_mul, Nat.zero_mul,
      Binary64.nearest_zero neg (zero_lt_pow (by omega) _)]
  · exact Binary64.ofDecimal_of_quotient neg hx (hsize hx).1 (hsize hx).2

theorem fits_pow_ten {k : Nat} (hk : k ≤ 22) : Fits Format.double.digits (Nat.pow 10 k) := by
  have hfive : Nat.pow 5 k < Nat.pow 2 Format.double.digits :=
    Nat.lt_of_le_of_lt (Nat.pow_le_pow_right (by omega) hk) (by decide)
  exact ⟨Nat.pow 5 k, k, hfive, (Nat.mul_pow 5 2 k : (5 * 2) ^ k = 5 ^ k * 2 ^ k)⟩

/-- Nothing but the result is rounded if double precision holds both the significand and the power
of ten. -/
theorem scale_of_fits {s : Nat} {e : Int} (hs : Fits Format.double.digits s)
    (hlimit : s ≤ 2 ^ 53) (he : e.natAbs ≤ 22) :
    scale (.ofNat s) e = some (.nearest false (s * Nat.pow 10 e.toNat * Magnitude.one)
      (Nat.pow 10 (-e).toNat)) := by
  have hone := Magnitude.zero_lt_one
  have hten : Nat.pow 10 e.natAbs ≤ Nat.pow 10 22 := Nat.pow_le_pow_right (by omega) he
  obtain ⟨a, ha, haunits⟩ := ofNat_of_fits hs (Nat.le_trans hlimit (by decide +kernel))
  obtain ⟨p, hp, hpunits⟩ := ofNat_of_fits (fits_pow_ten he) (Nat.le_trans hten (by decide +kernel))
  have hsmall : e.natAbs ≤ scaleLimit := Nat.le_trans he (by decide)
  rw [scale, if_pos hsmall, powerOfTen_eq_ofNat hsmall, ha, hp]
  by_cases hpos : 0 ≤ e
  · have habs : e.natAbs = e.toNat := by omega
    have hneg : (-e).toNat = 0 := by omega
    have hproduct : Binary64.finite false a * Binary64.finite false p =
        .nearest false (s * Nat.pow 10 e.toNat * Magnitude.one) (Nat.pow 10 (-e).toNat) := by
      rw [Binary64.finite_mul_finite, haunits, hpunits, habs, hneg]
      refine Binary64.nearest_eq_of_ratio _ hone Nat.one_pos ?_
      generalize Magnitude.one = one
      rw [show Nat.pow 10 0 = 1 from rfl, Nat.mul_one]
      ac_rfl
    have hbound : s * Nat.pow 10 e.toNat * Magnitude.one ≤
        (Magnitude.power 200).units * Nat.pow 10 (-e).toNat := by
      have hlarge : 2 ^ 53 * Nat.pow 10 22 * Magnitude.one ≤ (Magnitude.power 200).units := by
        decide +kernel
      rw [← habs, hneg, show Nat.pow 10 0 = 1 from rfl, Nat.mul_one]
      exact Nat.le_trans (Nat.mul_le_mul_right _ (Nat.mul_le_mul hlimit hten)) hlarge
    have hfinite := (Binary64.within_nearest (zero_lt_pow (by omega) _) hbound false).isFinite
    rw [if_pos hpos, hproduct, if_pos hfinite]
  · have habs : e.natAbs = (-e).toNat := by omega
    have hzero : e.toNat = 0 := by omega
    have hpow : 0 < Nat.pow 10 (-e).toNat := zero_lt_pow (by omega) _
    have hpositive : 0 < Nat.pow 10 (-e).toNat * Magnitude.one := Nat.mul_pos hpow hone
    rw [habs] at hpunits
    rw [if_neg hpos, Binary64.finite_div_finite (by omega), haunits, hpunits, hzero]
    refine congrArg some (Binary64.nearest_eq_of_ratio _ hpositive hpow ?_)
    generalize Magnitude.one = one
    rw [show Nat.pow 10 0 = 1 from rfl, Nat.mul_one]
    ac_rfl

/-- A number is read as the nearest value if its digits, taken as a whole number, are at most
`2 ^ 53` and the power of ten that goes with them is at most the twenty-second. -/
theorem value?_of_short {t : NumberText} (h : t.Sized) (hsignificand : t.significand ≤ 2 ^ 53)
    (hpower : t.power.natAbs ≤ 22) :
    t.value? = some (Binary64.ofDecimal t.neg t.toDecimal) := by
  obtain ⟨s, d, htruncates, hvalue⟩ := value?_eq h
  -- A number of this size is taken with all its digits.
  obtain ⟨rfl, rfl⟩ : d = 0 ∧ s = t.significand := by
    rcases htruncates.full with rfl | hfull
    · exact ⟨rfl, htruncates.eq⟩
    · have hle : s ≤ t.significand :=
        Nat.le_trans (Nat.le_mul_of_pos_right _ (Nat.pow_pos (by omega))) htruncates.le
      omega
  have hfits : Fits Format.double.digits t.significand := by
    rcases Nat.lt_or_eq_of_le hsignificand with hlt | heq
    · exact ⟨_, 0, hlt, (Nat.mul_one _).symm⟩
    · rw [heq]
      exact .two_pow (by decide) 53
  have hsize : t.significand ≠ 0 →
      -Decimal.horizon ≤ t.toDecimal.size ∧ t.toDecimal.size ≤ Decimal.horizon := by
    intro _
    have hcount : digitCount t.significand ≤ 16 :=
      (digitCount_le_iff (by omega)).2 (Nat.lt_of_le_of_lt hsignificand (by decide))
    unfold Decimal.size Decimal.horizon toDecimal
    dsimp only
    omega
  rw [hvalue, Int.natCast_zero, Int.add_zero, scale_of_fits hfits hsignificand hpower,
    Option.map_some, withSign_nearest, ofDecimal_eq_nearest t.neg hsize]
  rfl

end Json.NumberText

end Ratchet
