import Ratchet.Proofs.Share

/-!
# Where results lie

Rounding leaves a quotient at the nearest representable magnitude, or at an infinity, which stands
just past the finite values. `nearestUnits` counts how far from zero that is, in one number for both
cases: it grows with the quotient (`nearestUnits_mono`) and keeps what is representable
(`nearestUnits_units`).

With a sign this is `roundPlace`, the place of the rounded value of a whole number of least units. A
sum or a difference of finite values lies at the rounded place of the exact one (`place?_add`,
`place?_sub`), and a product of values on one side of zero where its quotient is rounded to
(`place?_finite_mul_finite`). So an order between exact results is one between the rounded results,
and no result is carried across a representable value. A product of finite values that are not below
zero grows with a factor (`mul_le_mul_of_isFinite`).
-/

namespace Ratchet

namespace Binary64

variable {x y z : Binary64} {n d n' d' : Nat} {p q : Int} {s t : Bool} {a b : Magnitude}

theorem signed_not (s : Bool) (n : Nat) : signed (!s) n = -signed s n := by
  cases s <;> simp [signed]

theorem natAbs_signed (s : Bool) (n : Nat) : (signed s n).natAbs = n := by
  unfold signed
  split <;> omega

/-- What is no larger than a number that is not negative has its sign, or is zero. -/
theorem signed_of_nonneg {k : Nat} (h : 0 ≤ signed s n) (hk : k ≤ n) : signed s k = k := by
  cases s with
  | false => rfl
  | true =>
    have hneg : 0 ≤ -(n : Int) := h
    have hzero : k = 0 := by omega
    rw [hzero]
    rfl

theorem signed_of_nonpos {k : Nat} (h : signed s n ≤ 0) (hk : k ≤ n) :
    signed s k = -(k : Int) := by
  rw [← signed_of_nonneg (s := !s) (n := n) (by rw [signed_not]; omega) hk, signed_not, Int.neg_neg]

theorem finite_add_finite (s t : Bool) (a b : Magnitude) :
    finite s a + finite t b =
      if signed s a.units + signed t b.units = 0 then zero (s && t)
      else nearest (decide (signed s a.units + signed t b.units < 0))
        (signed s a.units + signed t b.units).natAbs 1 := rfl

theorem finite_sub_finite (s t : Bool) (a b : Magnitude) :
    finite s a - finite t b = finite s a + finite (!t) b := rfl

theorem nearest_cases (s : Bool) (n d : Nat) :
    nearest s n d = inf s ∨ ∃ m, nearest s n d = finite s m := by
  unfold nearest
  cases Magnitude.nearest? n d with
  | none => exact .inl rfl
  | some m => exact .inr ⟨m, rfl⟩

/-- Where the infinities stand, in least units. -/
@[irreducible] def beyond : Nat := Nat.pow 2 Format.double.limit

theorem beyond_eq : beyond = Nat.pow 2 Format.double.limit := by
  unfold beyond
  rfl

theorem units_lt_beyond (m : Magnitude) : m.units < beyond := by
  rw [beyond_eq]
  exact m.bounded

/-- How far from zero the value nearest `n / d` lies. -/
def nearestUnits (n d : Nat) : Nat := min (roundTo Format.double.digits n d) beyond

theorem nearestUnits_le_roundTo (n d : Nat) :
    nearestUnits n d ≤ roundTo Format.double.digits n d := Nat.min_le_left _ _

theorem place?_nearest (s : Bool) (n d : Nat) :
    (nearest s n d).place? = some (signed s (nearestUnits n d)) := by
  unfold nearest Magnitude.nearest? nearestUnits
  rw [beyond_eq]
  dsimp only
  split
  · next m h =>
    split at h
    · next hlt =>
      cases h
      rw [Nat.min_eq_left (Nat.le_of_lt hlt)]
      rfl
    · cases h
  · next h =>
    split at h
    · cases h
    · next hle =>
      rw [Nat.min_eq_right (Nat.le_of_not_lt hle)]
      rfl

theorem nearestUnits_mono (hd : 0 < d) (hd' : 0 < d') (h : n * d' ≤ n' * d) :
    nearestUnits n d ≤ nearestUnits n' d' := by
  have hround := roundTo_mono (p := Format.double.digits) (by decide) hd hd' h
  unfold nearestUnits
  omega

theorem nearest_le_nearest_iff :
    nearest false n d ≤ nearest false n' d' ↔ nearestUnits n d ≤ nearestUnits n' d' := by
  rw [le_iff_of_place (place?_nearest _ _ _) (place?_nearest _ _ _)]
  exact Int.ofNat_le

theorem nearest_le_nearest (hd : 0 < d) (hd' : 0 < d') (h : n * d' ≤ n' * d) :
    nearest false n d ≤ nearest false n' d' :=
  nearest_le_nearest_iff.2 (nearestUnits_mono hd hd' h)

theorem nearestUnits_units (m : Magnitude) (hd : 0 < d) :
    nearestUnits (m.units * d) d = m.units := by
  have hbound := units_lt_beyond m
  unfold nearestUnits
  rw [roundTo_of_fits m.fits hd]
  omega

theorem nearestUnits_zero (hd : 0 < d) : nearestUnits 0 d = 0 := by
  have hzero := nearestUnits_units .zero hd
  rwa [units_zero, Nat.zero_mul] at hzero

/-! ## Rounded places -/

/-- The place of the value nearest a whole number of least units. -/
def roundPlace (p : Int) : Int := signed (decide (p < 0)) (nearestUnits p.natAbs 1)

theorem roundPlace_of_nonneg (h : 0 ≤ p) : roundPlace p = nearestUnits p.natAbs 1 := by
  rw [roundPlace, decide_eq_false (by omega)]
  rfl

theorem roundPlace_of_nonpos (h : p ≤ 0) : roundPlace p = -(nearestUnits p.natAbs 1 : Int) := by
  rcases Int.lt_or_eq_of_le h with hneg | rfl
  · rw [roundPlace, decide_eq_true hneg]
    rfl
  · rw [roundPlace, Int.natAbs_zero, nearestUnits_zero Nat.one_pos]
    rfl

theorem nearestUnits_le_of_natAbs_le (h : p.natAbs ≤ q.natAbs) :
    nearestUnits p.natAbs 1 ≤ nearestUnits q.natAbs 1 :=
  nearestUnits_mono Nat.one_pos Nat.one_pos (by omega)

theorem roundPlace_mono (h : p ≤ q) : roundPlace p ≤ roundPlace q := by
  rcases Int.le_total 0 p with hp | hp
  · rw [roundPlace_of_nonneg hp, roundPlace_of_nonneg (by omega)]
    have hle := nearestUnits_le_of_natAbs_le (p := p) (q := q) (by omega)
    omega
  · rw [roundPlace_of_nonpos hp]
    rcases Int.le_total 0 q with hq | hq
    · rw [roundPlace_of_nonneg hq]
      omega
    · rw [roundPlace_of_nonpos hq]
      have hle := nearestUnits_le_of_natAbs_le (p := q) (q := p) (by omega)
      omega

theorem roundPlace_neg (p : Int) : roundPlace (-p) = -roundPlace p := by
  rcases Int.le_total 0 p with hp | hp
  · rw [roundPlace_of_nonneg hp, roundPlace_of_nonpos (by omega), Int.natAbs_neg]
  · rw [roundPlace_of_nonpos hp, roundPlace_of_nonneg (by omega), Int.natAbs_neg, Int.neg_neg]

theorem natAbs_roundPlace (p : Int) : (roundPlace p).natAbs = nearestUnits p.natAbs 1 :=
  natAbs_signed _ _

theorem roundPlace_signed (s : Bool) (m : Magnitude) :
    roundPlace (signed s m.units) = signed s m.units := by
  have hunits := nearestUnits_units m Nat.one_pos
  rw [Nat.mul_one] at hunits
  rcases Int.le_total 0 (signed s m.units) with hpos | hneg
  · rw [roundPlace_of_nonneg hpos, natAbs_signed, hunits]
    have habs := natAbs_signed s m.units
    omega
  · rw [roundPlace_of_nonpos hneg, natAbs_signed, hunits]
    have habs := natAbs_signed s m.units
    omega

theorem roundPlace_zero : roundPlace 0 = 0 := roundPlace_signed false .zero

theorem roundPlace_between {r : Int} (h : p ≤ q ∧ q ≤ r ∨ r ≤ q ∧ q ≤ p) :
    roundPlace p ≤ roundPlace q ∧ roundPlace q ≤ roundPlace r ∨
      roundPlace r ≤ roundPlace q ∧ roundPlace q ≤ roundPlace p :=
  h.imp (fun h => ⟨roundPlace_mono h.1, roundPlace_mono h.2⟩)
    fun h => ⟨roundPlace_mono h.1, roundPlace_mono h.2⟩

theorem exists_place (h : x.isFinite) : ∃ p, x.place? = some p :=
  isNan_eq_false_iff.1 (isNan_of_isFinite h)

theorem isFinite_iff_of_place (h : x.place? = some p) : x.isFinite ↔ p.natAbs < beyond := by
  cases x with
  | nan => cases h
  | inf s =>
    cases h
    rw [natAbs_signed, beyond_eq]
    exact iff_of_false Bool.false_ne_true (Nat.lt_irrefl _)
  | finite s m =>
    cases h
    rw [natAbs_signed]
    exact iff_of_true rfl (units_lt_beyond m)

theorem roundPlace_of_isFinite (h : x.isFinite) (hx : x.place? = some p) : roundPlace p = p := by
  cases x with
  | nan => cases h
  | inf => cases h
  | finite s m =>
    cases hx
    exact roundPlace_signed s m

theorem place?_neg (hx : x.place? = some p) : (-x).place? = some (-p) := by
  cases x with
  | nan => cases hx
  | inf s =>
    cases hx
    exact congrArg some (signed_not s _)
  | finite s m =>
    cases hx
    exact congrArg some (signed_not s _)

theorem isFinite_neg (h : x.isFinite) : (-x).isFinite := by
  cases x with
  | nan => cases h
  | inf => cases h
  | finite => rfl

theorem place?_add (hx : x.isFinite) (hy : y.isFinite) (hp : x.place? = some p)
    (hq : y.place? = some q) : (x + y).place? = some (roundPlace (p + q)) := by
  cases x with
  | nan => cases hx
  | inf => cases hx
  | finite s a =>
    cases y with
    | nan => cases hy
    | inf => cases hy
    | finite t b =>
      cases hp
      cases hq
      rw [finite_add_finite]
      split
      · next hzero =>
        rw [hzero, roundPlace_of_nonneg (Int.le_refl 0), Int.natAbs_zero,
          nearestUnits_zero Nat.one_pos]
        cases s && t <;> rfl
      · exact place?_nearest _ _ _

theorem place?_sub (hx : x.isFinite) (hy : y.isFinite) (hp : x.place? = some p)
    (hq : y.place? = some q) : (x - y).place? = some (roundPlace (p - q)) :=
  place?_add hx (isFinite_neg hy) hp (place?_neg hq)

/-! ## Products -/

theorem place?_finite_mul_finite (h : 0 ≤ signed s a.units ∧ 0 ≤ signed t b.units ∨
    signed s a.units ≤ 0 ∧ signed t b.units ≤ 0) :
    (finite s a * finite t b).place? =
      some ((nearestUnits (a.units * b.units) Magnitude.one : Nat) : Int) := by
  rw [finite_mul_finite, place?_nearest]
  by_cases hsign : s = t
  · rw [hsign, bne_self_eq_false]
    rfl
  -- With different signs one of the two is zero.
  · have hzero : a.units = 0 ∨ b.units = 0 := by
      cases s <;> cases t <;> simp [signed] at h hsign <;> omega
    rw [Nat.mul_eq_zero.2 hzero, nearestUnits_zero Magnitude.zero_lt_one]
    cases s != t <;> rfl

theorem mul_le_mul_of_isFinite (hx : x.isFinite) (hnonneg : 0 ≤ x) (hy : y.isFinite) (h : x ≤ y)
    (hz : z.isFinite) (hz' : ¬ z < 0) : x * z ≤ y * z := by
  cases x with
  | nan => cases hx
  | inf => cases hx
  | finite s a =>
    cases y with
    | nan => cases hy
    | inf => cases hy
    | finite t b =>
      cases z with
      | nan => cases hz
      | inf => cases hz
      | finite u c =>
        rw [le_iff_of_place place?_zero rfl] at hnonneg
        rw [le_iff_of_place rfl rfl] at h
        have hc := place_nonneg_of_not_lt hz' rfl
        have hb := Int.le_trans hnonneg h
        rw [le_iff_of_place (place?_finite_mul_finite (.inl ⟨hnonneg, hc⟩))
          (place?_finite_mul_finite (.inl ⟨hb, hc⟩))]
        rw [signed_of_nonneg hnonneg (Nat.le_refl _), signed_of_nonneg hb (Nat.le_refl _)] at h
        refine Int.ofNat_le.2 (nearestUnits_mono Magnitude.zero_lt_one Magnitude.zero_lt_one ?_)
        exact Nat.mul_le_mul_right _ (Nat.mul_le_mul_right _ (Int.ofNat_le.1 h))

end Binary64

end Ratchet
