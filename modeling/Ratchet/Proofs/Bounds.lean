import Mathlib.Data.Nat.Sqrt
import Ratchet.Proofs.Places

/-!
# Operations that stay in range

`x.Within b` says that `x` is finite and at most `b` in magnitude. An operation on such values is
finite as soon as its exact result is bounded by a magnitude that is representable, since rounding
is monotone; so sums, products and quotients by a count have the obvious bounds.

A mean that takes a share of the difference to a value moves towards that value, and rounding does
not carry it past: from the second value on it stays between the two (`between_toward`), so that a
bound on both bounds the new mean as well (`Within.toward`). No bound on how many values there are
is needed for that.
-/

namespace Ratchet

theorem Fits.two_pow {p : Nat} (hp : 0 < p) (e : Nat) : Fits p (Nat.pow 2 e) :=
  ⟨1, e, Nat.one_lt_two_pow (by omega), (Nat.one_mul _).symm⟩

/-- Rounding, halving and rounding again does not exceed a whole number. -/
theorem roundTo_half_le {p : Nat} (hp : 0 < p) (n : Nat) : roundTo p (roundTo p n 1) 2 ≤ n := by
  rcases Nat.eq_zero_or_pos n with rfl | hn
  · have hone := roundTo_of_fits (Fits.zero p) Nat.one_pos
    have htwo := roundTo_of_fits (Fits.zero p) Nat.two_pos
    rw [Nat.zero_mul] at hone htwo
    rw [hone, htwo]
  -- The power of two above it halves to the one below it.
  · have hlow : Nat.pow 2 n.log2 ≤ n := Nat.log2_self_le (by omega)
    have hhigh : n ≤ Nat.pow 2 (n.log2 + 1) := Nat.le_of_lt Nat.lt_log2_self
    have hdouble : Nat.pow 2 (n.log2 + 1) = Nat.pow 2 n.log2 * 2 := rfl
    have hround : roundTo p n 1 ≤ Nat.pow 2 (n.log2 + 1) := by
      rw [← roundTo_of_fits (Fits.two_pow hp (n.log2 + 1)) Nat.one_pos]
      exact roundTo_mono hp Nat.one_pos Nat.one_pos (by omega)
    have hhalf : roundTo p (roundTo p n 1) 2 ≤ Nat.pow 2 n.log2 := by
      rw [← roundTo_of_fits (Fits.two_pow hp n.log2) Nat.two_pos]
      exact roundTo_mono hp Nat.two_pos Nat.two_pos (by omega)
    exact Nat.le_trans hhalf hlow

def Magnitude.power (e : Fin 1024) : Magnitude where
  units := Nat.pow 2 (e + Format.double.unit)
  fits := .two_pow (by decide) _
  bounded := by
    rw [Nat.pow_eq, Nat.pow_eq]
    exact Nat.pow_lt_pow_right Nat.one_lt_two (Nat.add_lt_add_right e.isLt Format.double.unit)

namespace Binary64

variable {x y z : Binary64} {a b c : Magnitude} {k n : Nat} {s t : Bool}

/-- Finite and at most `b` in magnitude. -/
def Within (b : Magnitude) (x : Binary64) : Prop := ∃ s m, x = finite s m ∧ m.units ≤ b.units

theorem Within.isFinite (h : x.Within b) : x.isFinite := by
  obtain ⟨s, m, rfl, -⟩ := h
  rfl

theorem within_of_abs_le (h : x.abs ≤ finite false b) : x.Within b := by
  obtain ⟨p, q, hp, hq, hle⟩ := le_iff.1 h
  cases hq
  cases x with
  | nan => cases hp
  | inf s =>
    cases hp
    exact absurd (Nat.lt_of_lt_of_le b.bounded (Int.ofNat_le.1 hle)) (Nat.lt_irrefl _)
  | finite s m =>
    cases hp
    exact ⟨s, m, rfl, Int.ofNat_le.1 hle⟩

theorem exists_within (h : x.isFinite) : ∃ b, x.Within b := by
  cases x with
  | nan => cases h
  | inf => cases h
  | finite s m => exact ⟨m, s, m, rfl, Nat.le_refl _⟩

theorem within_zero (b : Magnitude) (s : Bool) : (zero s).Within b :=
  ⟨s, .zero, rfl, Nat.zero_le _⟩

theorem within_of_nonneg_of_le (h : 0 ≤ x) (hle : x ≤ finite false b) : x.Within b := by
  rcases cases_of_zero_le h with rfl | ⟨m, rfl⟩ | rfl
  · exact within_of_abs_le hle
  · exact within_of_abs_le hle
  · exact within_zero b true

theorem within_nearest {d : Nat} (hd : 0 < d) (h : n ≤ b.units * d) (s : Bool) :
    (nearest s n d).Within b := by
  have hround := nearest_units s b Nat.one_pos
  rw [Nat.mul_one] at hround
  have hratio : n * 1 ≤ b.units * d := by rwa [Nat.mul_one]
  obtain ⟨m, hm, hle⟩ := exists_nearest_of_le hd Nat.one_pos hratio hround s
  exact ⟨s, m, hm, hle⟩

/-! ## Sums and differences -/

theorem isZero_finite_iff {s : Bool} {m : Magnitude} : (finite s m).isZero ↔ m.units = 0 := by
  have habs := natAbs_signed s m.units
  unfold isZero place?
  rw [beq_iff_eq, Option.some.injEq]
  omega

theorem within_of_isZero (h : x.isZero) : x.Within .zero := by
  have hfinite := isFinite_of_isZero h
  cases x with
  | nan => cases hfinite
  | inf => cases hfinite
  | finite s m => exact ⟨s, m, rfl, Nat.le_of_eq (isZero_finite_iff.1 h)⟩

theorem within_iff : x.Within b ↔ ∃ p, x.place? = some p ∧ p.natAbs ≤ b.units := by
  constructor
  · rintro ⟨s, m, rfl, hm⟩
    exact ⟨_, rfl, by rwa [natAbs_signed]⟩
  · rintro ⟨p, hp, hle⟩
    have hfinite := (isFinite_iff_of_place hp).2 (Nat.lt_of_le_of_lt hle (units_lt_beyond b))
    cases x with
    | nan => cases hfinite
    | inf => cases hfinite
    | finite s m =>
      cases hp
      rw [natAbs_signed] at hle
      exact ⟨s, m, rfl, hle⟩

theorem roundTo_le_units (h : n ≤ c.units) :
    roundTo Format.double.digits n 1 ≤ c.units := by
  have hround := roundTo_of_fits c.fits Nat.one_pos
  rw [← hround]
  exact roundTo_mono (by decide) Nat.one_pos Nat.one_pos (by omega)

theorem Within.add (hx : x.Within a) (hy : y.Within b)
    (h : roundTo Format.double.digits (a.units + b.units) 1 ≤ c.units) : (x + y).Within c := by
  obtain ⟨p, hp, hpa⟩ := within_iff.1 hx
  obtain ⟨q, hq, hqb⟩ := within_iff.1 hy
  refine within_iff.2 ⟨_, place?_add hx.isFinite hy.isFinite hp hq, ?_⟩
  calc (roundPlace (p + q)).natAbs
      = nearestUnits (p + q).natAbs 1 := natAbs_roundPlace _
    _ ≤ roundTo Format.double.digits (p + q).natAbs 1 := nearestUnits_le_roundTo _ _
    _ ≤ roundTo Format.double.digits (a.units + b.units) 1 :=
      roundTo_mono (by decide) Nat.one_pos Nat.one_pos (by omega)
    _ ≤ c.units := h

theorem Within.neg (h : x.Within b) : (-x).Within b := by
  obtain ⟨s, m, rfl, hm⟩ := h
  exact ⟨!s, m, rfl, hm⟩

theorem Within.sub (hx : x.Within a) (hy : y.Within b) (h : a.units + b.units ≤ c.units) :
    (x - y).Within c :=
  hx.add hy.neg (roundTo_le_units h)

/-- What starts at zero is no larger than what it takes in. -/
theorem Within.sub_zero (h : x.Within b) : (x - 0).Within b :=
  h.sub (within_zero .zero false) (Nat.le_of_eq (Nat.add_zero _))

theorem Within.zero_add (h : x.Within b) : (0 + x).Within b :=
  (within_zero .zero false).add h (roundTo_le_units (Nat.le_of_eq (Nat.zero_add _)))

theorem Within.mul (hx : x.Within a) (hy : y.Within b)
    (h : a.units * b.units ≤ c.units * Magnitude.one) : (x * y).Within c := by
  obtain ⟨s, m, rfl, hm⟩ := hx
  obtain ⟨t, m', rfl, hm'⟩ := hy
  rw [finite_mul_finite]
  exact within_nearest Magnitude.zero_lt_one (Nat.le_trans (Nat.mul_le_mul hm hm') h) _

/-! ## Quotients by counts -/

-- Said of the functions: with a count the two sides would be compared by computing them.
theorem natCast_eq_ofNat : (Nat.cast : Nat → Binary64) = ofNat := rfl

theorem ofNat_cases (n : Nat) : ofNat n = inf false ∨ ∃ m, ofNat n = finite false m :=
  nearest_cases false _ _

theorem exists_div_ofNat (hn : 0 < n)
    (hplace : (ofNat n).place? = some ((n * Magnitude.one : Nat) : Int)) (hle : n ≤ k) (s : Bool)
    (a : Magnitude) :
    ∃ m, finite s a / ofNat k = finite s m ∧
      m.units ≤ roundTo Format.double.digits a.units n := by
  rcases ofNat_cases k with hk | ⟨count, hk⟩
  · have hzero : finite s a / ofNat k = zero s := by
      rw [hk]
      cases s <;> rfl
    exact ⟨.zero, hzero, Nat.zero_le _⟩
  · obtain ⟨least, hleast, hunits⟩ := exists_ofNat_of_le hle hk
    rw [units_of_place? hleast hplace] at hunits
    have hpos : 0 < count.units :=
      Nat.lt_of_lt_of_le (Nat.mul_pos hn Magnitude.zero_lt_one) hunits
    have hround : roundTo Format.double.digits (a.units * Magnitude.one) count.units ≤
        roundTo Format.double.digits a.units n := by
      refine roundTo_mono (by decide) hpos hn ?_
      rw [Nat.mul_assoc, Nat.mul_comm Magnitude.one]
      exact Nat.mul_le_mul_left _ hunits
    have hself : roundTo Format.double.digits a.units n ≤ a.units := by
      conv => rhs; rw [← roundTo_of_fits a.fits hn]
      exact roundTo_mono (by decide) hn hn (Nat.mul_le_mul_right _ (Nat.le_mul_of_pos_right _ hn))
    obtain ⟨m, hm, hmunits⟩ := exists_nearest_of_roundTo_le (Nat.le_trans hround hself) s
    refine ⟨m, ?_, Nat.le_trans (Nat.le_of_eq hmunits) hround⟩
    rw [hk, finite_div_finite (by omega), Bool.bne_false]
    exact hm

theorem place?_one_mul : (ofNat 1).place? = some ((1 * Magnitude.one : Nat) : Int) := by
  rw [Nat.one_mul]
  exact place?_ofNat_one

theorem place?_ofNat_two : (ofNat 2).place? = some ((2 * Magnitude.one : Nat) : Int) := by
  decide +kernel

theorem Within.div_ofNat (h : x.Within b) (hk : 0 < k) : (x / ofNat k).Within b := by
  obtain ⟨s, m, rfl, hm⟩ := h
  obtain ⟨q, hq, hunits⟩ := exists_div_ofNat Nat.one_pos place?_one_mul hk s m
  have hround := roundTo_le_units (Nat.le_refl m.units)
  exact ⟨s, q, hq, by omega⟩

/-- Between two values, whichever of them is the smaller. -/
def Between (x z y : Binary64) : Prop := x ≤ y ∧ y ≤ z ∨ z ≤ y ∧ y ≤ x

theorem between_iff_of_place {p q r : Int} (hx : x.place? = some p) (hy : y.place? = some q)
    (hz : z.place? = some r) : Between x z y ↔ p ≤ q ∧ q ≤ r ∨ r ≤ q ∧ q ≤ p := by
  unfold Between
  rw [le_iff_of_place hx hy, le_iff_of_place hy hz, le_iff_of_place hz hy, le_iff_of_place hy hx]

theorem Within.between (hx : x.Within b) (hz : z.Within b) (h : Between x z y) : y.Within b := by
  obtain ⟨p, hp, hpb⟩ := within_iff.1 hx
  obtain ⟨r, hr, hrb⟩ := within_iff.1 hz
  have hnan : y.isNan = false :=
    h.elim (fun h => isNan_of_le h.2) (fun h => isNan_of_le h.2)
  obtain ⟨q, hq⟩ := isNan_eq_false_iff.1 hnan
  rw [between_iff_of_place hp hq hr] at h
  exact within_iff.2 ⟨q, hq, by omega⟩

/-- At most half of a number that was rounded is, rounded again, at most the number. -/
theorem exists_part_le (hk : 2 ≤ k) (h : a.units ≤ roundTo Format.double.digits n 1) (s : Bool) :
    ∃ m, finite s a / ofNat k = finite s m ∧ m.units ≤ a.units ∧ m.units ≤ n := by
  obtain ⟨m, hm, hunits⟩ := exists_div_ofNat Nat.two_pos place?_ofNat_two hk s a
  have hself : roundTo Format.double.digits a.units 2 ≤ roundTo Format.double.digits a.units 1 :=
    roundTo_mono (by decide) Nat.two_pos Nat.one_pos (by omega)
  have hmono : roundTo Format.double.digits a.units 2 ≤
      roundTo Format.double.digits (roundTo Format.double.digits n 1) 2 :=
    roundTo_mono (by decide) Nat.two_pos Nat.two_pos (Nat.mul_le_mul_right 2 h)
  have hround := roundTo_le_units (Nat.le_refl a.units)
  have hhalf := roundTo_half_le (p := Format.double.digits) (by decide) n
  exact ⟨m, hm, by omega, by omega⟩

/-- A mean that takes at most half of the difference to a value stays between the two. -/
theorem between_toward {mean : Binary64} (h : (x - mean).isFinite) (hk : 2 ≤ k) :
    Between mean x (mean + (x - mean) / ofNat k) := by
  obtain ⟨hx, hmean⟩ := isFinite_of_sub h
  obtain ⟨p, hp⟩ := exists_place hmean
  obtain ⟨q, hq⟩ := exists_place hx
  have hdifference := place?_sub hx hmean hq hp
  cases hd : x - mean with
  | nan => rw [hd] at h; cases h
  | inf => rw [hd] at h; cases h
  | finite r d =>
    rw [hd] at hdifference
    have hplace : signed r d.units = roundPlace (q - p) := Option.some.inj hdifference
    have hrounded : d.units ≤ roundTo Format.double.digits (q - p).natAbs 1 := by
      rw [← natAbs_signed r d.units, hplace, natAbs_roundPlace]
      exact nearestUnits_le_roundTo _ _
    obtain ⟨m, hm, hself, hshare⟩ := exists_part_le hk hrounded r
    rw [hm]
    have hsum := place?_add hmean (show (finite r m).isFinite from rfl) hp rfl
    have hfixp := roundPlace_of_isFinite hmean hp
    have hfixq := roundPlace_of_isFinite hx hq
    -- The share has the sign of the difference and does not exceed the exact one.
    have hexact : p ≤ p + signed r m.units ∧ p + signed r m.units ≤ q ∨
        q ≤ p + signed r m.units ∧ p + signed r m.units ≤ p := by
      have hzero := roundPlace_zero
      rcases Int.le_total p q with hle | hle
      · have hnonneg := roundPlace_mono (show 0 ≤ q - p by omega)
        rw [signed_of_nonneg (by omega) hself]
        omega
      · have hnonpos := roundPlace_mono (show q - p ≤ 0 by omega)
        rw [signed_of_nonpos (by omega) hself]
        omega
    have hround := roundPlace_between hexact
    rw [hfixp, hfixq] at hround
    exact (between_iff_of_place hp hsum hq).2 hround

theorem Within.toward {mean : Binary64} (hmean : mean.Within b) (hx : x.Within b) (hk : 2 ≤ k)
    (h : b.units + b.units ≤ c.units) : (mean + (x - mean) / ofNat k).Within b :=
  hmean.between hx (between_toward (hx.sub hmean h).isFinite hk)

/-! ## Square roots -/

theorem within_sqrt (hx : x.isFinite) (h : x.sqrt.isNan = false) :
    x.sqrt.Within (.power 512) := by
  cases x with
  | nan => cases hx
  | inf => cases hx
  | finite s m =>
    unfold sqrt at h ⊢
    dsimp only at h ⊢
    by_cases hzero : m.units = 0
    · rw [if_pos hzero]
      exact ⟨s, m, rfl, by omega⟩
    · rw [if_neg hzero] at h ⊢
      cases s with
      | true => cases h
      | false =>
        have hbound : m.units * Magnitude.one <
            (Magnitude.power 512).units * (Magnitude.power 512).units :=
          calc m.units * Magnitude.one
              < Nat.pow 2 Format.double.limit * Magnitude.one :=
                Nat.mul_lt_mul_of_pos_right m.bounded Magnitude.zero_lt_one
            _ ≤ _ := by decide +kernel
        have hroot := Nat.sqrt_lt.2 hbound
        rw [if_neg Bool.false_ne_true]
        split
        · exact within_nearest Nat.one_pos (by omega) false
        · exact within_nearest Nat.two_pos (by omega) false

theorem isFinite_of_sqrt (h : x.sqrt.isFinite) : x.isFinite := by
  cases x with
  | nan => cases h
  | inf s => cases s <;> cases h
  | finite => rfl

theorem isFinite_of_div_ofNat (h : (x / ofNat k).isFinite) : x.isFinite := by
  cases x with
  | nan => cases h
  | inf s => rcases ofNat_cases k with hk | ⟨m, hk⟩ <;> rw [hk] at h <;> cases h
  | finite => rfl

end Binary64

end Ratchet
