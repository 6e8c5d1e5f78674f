import Ratchet.Proofs.Overflow

/-!
# Rounding keeps the statistics in bounds

As long as no two values are further apart than the range of the doubles, every push leaves a mean
between the least and the greatest value so far, and a spread that is a number and not below zero.
`Moments.Bounded` is the invariant, on the mean and the spread together.

The new mean lies between the old one and the value, however the difference and the share of it are
rounded (`Binary64.between_toward`). The two differences that a push multiplies, from the value to
the old mean and to the new one, are then on the same side of zero, and their product is not below
it (`zero_le_sub_mul_sub`). It may be infinite: the spread is allowed to overflow, and stays where
it is from then on.
-/

namespace Ratchet

namespace Binary64

variable {x y z lo hi : Binary64} {p q : Int} {n : Nat}

theorem isFinite_of_bounds (hlo : lo.isFinite) (hhi : hi.isFinite) (h : lo ≤ x ∧ x ≤ hi) :
    x.isFinite := by
  obtain ⟨l, p, hl, hp, hlp⟩ := le_iff.1 h.1
  obtain ⟨p', u, hp', hu, hpu⟩ := le_iff.1 h.2
  cases hp.symm.trans hp'
  rw [isFinite_iff_of_place hl] at hlo
  rw [isFinite_iff_of_place hu] at hhi
  rw [isFinite_iff_of_place hp]
  omega

theorem isFinite_sub_of_bounds (hwidth : (hi - lo).isFinite) (hx : lo ≤ x ∧ x ≤ hi)
    (hy : lo ≤ y ∧ y ≤ hi) : (x - y).isFinite := by
  obtain ⟨hhi, hlo⟩ := isFinite_of_sub hwidth
  have hxfinite := isFinite_of_bounds hlo hhi hx
  have hyfinite := isFinite_of_bounds hlo hhi hy
  obtain ⟨l, hl⟩ := exists_place hlo
  obtain ⟨u, hu⟩ := exists_place hhi
  obtain ⟨p, hp⟩ := exists_place hxfinite
  obtain ⟨q, hq⟩ := exists_place hyfinite
  rw [le_iff_of_place hl hp, le_iff_of_place hp hu] at hx
  rw [le_iff_of_place hl hq, le_iff_of_place hq hu] at hy
  rw [isFinite_iff_of_place (place?_sub hhi hlo hu hl)] at hwidth
  rw [isFinite_iff_of_place (place?_sub hxfinite hyfinite hp hq)]
  have hhigh := roundPlace_mono (show p - q ≤ u - l by omega)
  have hlow := roundPlace_mono (show -(u - l) ≤ p - q by omega)
  rw [roundPlace_neg] at hlow
  omega

theorem le_congr_left (h : x.place? = y.place?) : x ≤ z ↔ y ≤ z := by
  rw [le_iff, le_iff, h]

theorem le_congr_right (h : x.place? = y.place?) : z ≤ x ↔ z ≤ y := by
  rw [le_iff, le_iff, h]

/-! ## Signs of results -/

theorem zero_le_iff_of_place (hx : x.place? = some p) : 0 ≤ x ↔ 0 ≤ p :=
  le_iff_of_place place?_zero hx

theorem zero_le_mul (hx : x.isFinite) (hy : y.isFinite) (hp : x.place? = some p)
    (hq : y.place? = some q) (h : 0 ≤ p ∧ 0 ≤ q ∨ p ≤ 0 ∧ q ≤ 0) : 0 ≤ x * y := by
  cases x with
  | nan => cases hx
  | inf => cases hx
  | finite s a =>
    cases y with
    | nan => cases hy
    | inf => cases hy
    | finite t b =>
      cases hp
      cases hq
      rw [zero_le_iff_of_place (place?_finite_mul_finite h)]
      exact Int.natCast_nonneg _

theorem zero_le_inf : 0 ≤ inf false := by decide +kernel

theorem eq_inf_of_zero_le (h : 0 ≤ x) (hx : x.isFinite = false) : x = inf false := by
  rcases cases_of_zero_le h with rfl | ⟨m, rfl⟩ | rfl
  · rfl
  · cases hx
  · cases hx

theorem inf_add_of_zero_le (h : 0 ≤ x) : inf false + x = inf false ∧ x + inf false = inf false := by
  rcases cases_of_zero_le h with rfl | ⟨m, rfl⟩ | rfl
  · exact ⟨rfl, rfl⟩
  · exact ⟨rfl, rfl⟩
  · exact ⟨rfl, rfl⟩

theorem zero_le_add (hx : 0 ≤ x) (hy : 0 ≤ y) : 0 ≤ x + y := by
  cases hxfinite : x.isFinite with
  | false =>
    rw [eq_inf_of_zero_le hx hxfinite, (inf_add_of_zero_le hy).1]
    exact zero_le_inf
  | true =>
    cases hyfinite : y.isFinite with
    | false =>
      rw [eq_inf_of_zero_le hy hyfinite, (inf_add_of_zero_le hx).2]
      exact zero_le_inf
    | true =>
      obtain ⟨p, hp⟩ := exists_place hxfinite
      obtain ⟨q, hq⟩ := exists_place hyfinite
      rw [zero_le_iff_of_place hp] at hx
      rw [zero_le_iff_of_place hq] at hy
      rw [zero_le_iff_of_place (place?_add hxfinite hyfinite hp hq), roundPlace_of_nonneg (by omega)]
      exact Int.natCast_nonneg _

/-- Of two differences to a value, the second from a place on the way to it, neither is on the other
side of zero. -/
theorem zero_le_sub_mul_sub (hfinite : (z - x).isFinite) (h : Between x z y) :
    0 ≤ (z - x) * (z - y) := by
  obtain ⟨hz, hx⟩ := isFinite_of_sub hfinite
  obtain ⟨p, hp⟩ := exists_place hx
  obtain ⟨r, hr⟩ := exists_place hz
  have hy := h.elim (isFinite_of_bounds hx hz) (isFinite_of_bounds hz hx)
  obtain ⟨q, hq⟩ := exists_place hy
  rw [between_iff_of_place hp hq hr] at h
  have hdifference := place?_sub hz hx hr hp
  have hrest := place?_sub hz hy hr hq
  have hround := roundPlace_between
    (show 0 ≤ r - q ∧ r - q ≤ r - p ∨ r - p ≤ r - q ∧ r - q ≤ 0 by omega)
  rw [roundPlace_zero] at hround
  have hbeyond := (isFinite_iff_of_place hdifference).1 hfinite
  have hrestFinite : (z - y).isFinite := (isFinite_iff_of_place hrest).2 (by omega)
  exact zero_le_mul hfinite hrestFinite hdifference hrest (by omega)

theorem zero_le_div_ofNat (hx : 0 ≤ x) (hn : 0 < n) (hlimit : n ≤ countLimit) :
    0 ≤ x / ofNat n := by
  obtain ⟨c, hc⟩ := exists_ofNat_eq_finite hlimit
  have hpos := Nat.lt_of_lt_of_le Magnitude.zero_lt_one (one_le_units_of_ofNat hn hc)
  rw [hc]
  rcases cases_of_zero_le hx with rfl | ⟨m, rfl⟩ | rfl
  · exact zero_le_inf
  · rw [finite_div_finite (by omega), bne_self_eq_false, zero_le_iff_of_place (place?_nearest _ _ _)]
    exact Int.natCast_nonneg _
  · rw [zero, finite_div_finite (by omega), units_zero, Nat.zero_mul, nearest_zero _ hpos]
    decide +kernel

theorem zero_le_sqrt (hx : 0 ≤ x) : 0 ≤ x.sqrt := by
  have hnan : x.sqrt.isNan = false := by
    rcases cases_of_zero_le hx with rfl | ⟨m, rfl⟩ | rfl
    · rfl
    · unfold sqrt
      dsimp only
      rw [if_neg Bool.false_ne_true]
      split
      · rfl
      · split
        · exact isNan_nearest _ _ _
        · exact isNan_nearest _ _ _
    · rfl
  exact le_of_not_lt hnan rfl (not_sqrt_lt_zero x)

theorem place?_sub_zero (hx : x.isFinite) (hp : x.place? = some p) : (x - 0).place? = some p := by
  rw [place?_sub hx (show (0 : Binary64).isFinite from rfl) hp place?_zero, Int.sub_zero,
    roundPlace_of_isFinite hx hp]

theorem isFinite_sub_zero (hx : x.isFinite) : (x - 0).isFinite := by
  obtain ⟨p, hp⟩ := exists_place hx
  rw [isFinite_iff_of_place (place?_sub_zero hx hp), ← isFinite_iff_of_place hp]
  exact hx

theorem place?_first (hx : x.isFinite) (hp : x.place? = some p) :
    (0 + (x - 0) / ofNat 1).place? = some p := by
  have hfinite := isFinite_sub_zero hx
  have hdifference := place?_sub_zero hx hp
  cases hd : x - 0 with
  | nan => rw [hd] at hfinite; cases hfinite
  | inf => rw [hd] at hfinite; cases hfinite
  | finite s d =>
    obtain ⟨one, hone⟩ := exists_ofNat_eq_finite (show 1 ≤ countLimit by decide +kernel)
    have hunits := units_of_place? hone place?_ofNat_one
    have hpos := Magnitude.zero_lt_one
    have hquotient : finite s d / ofNat 1 = finite s d := by
      rw [hone, finite_div_finite (by omega), Bool.bne_false, hunits]
      exact nearest_units s d hpos
    rw [hd] at hdifference
    rw [hquotient, place?_add (show (0 : Binary64).isFinite from rfl)
      (show (finite s d).isFinite from rfl) place?_zero hdifference, Int.zero_add,
      roundPlace_of_isFinite hx hp]

end Binary64

namespace Moments

variable {m : Moments Binary64} {x lo hi : Binary64} {xs : List Binary64}

/-! ## The invariant -/

/-- What holds of the statistics of values from `lo` to `hi`. -/
structure Bounded (lo hi : Binary64) (m : Moments Binary64) : Prop where
  start : m.count = 0 → m.mean = 0
  mean : m.count ≠ 0 → lo ≤ m.mean ∧ m.mean ≤ hi
  spread : 0 ≤ m.spread

theorem bounded_empty (lo hi : Binary64) : (empty : Moments Binary64).Bounded lo hi :=
  ⟨fun _ => rfl, fun h => absurd rfl h, by decide +kernel⟩

theorem place?_mean_push_first (hcount : m.count = 0) (hmean : m.mean = 0) (hx : x.isFinite) :
    (m.push x).mean.place? = x.place? := by
  obtain ⟨p, hp⟩ := Binary64.exists_place hx
  rw [mean_push, hcount, hmean, hp]
  exact Binary64.place?_first hx hp

/-- The new mean lies on the way from the old one to the value, which is within reach. -/
theorem Bounded.mean_between (h : m.Bounded lo hi) (hwidth : (hi - lo).isFinite)
    (hx : lo ≤ x ∧ x ≤ hi) :
    (x - m.mean).isFinite ∧ Binary64.Between m.mean x (m.push x).mean := by
  by_cases hcount : m.count = 0
  · obtain ⟨hhi, hlo⟩ := Binary64.isFinite_of_sub hwidth
    have hfinite := Binary64.isFinite_of_bounds hlo hhi hx
    obtain ⟨p, hp⟩ := Binary64.exists_place hfinite
    have hplace := place?_mean_push_first hcount (h.start hcount) hfinite
    rw [hp] at hplace
    rw [h.start hcount, Binary64.between_iff_of_place Binary64.place?_zero hplace hp]
    exact ⟨Binary64.isFinite_sub_zero hfinite, by omega⟩
  · have hfinite := Binary64.isFinite_sub_of_bounds hwidth hx (h.mean hcount)
    rw [mean_push]
    exact ⟨hfinite, Binary64.between_toward hfinite (by omega)⟩

theorem Bounded.mean_push (h : m.Bounded lo hi) (hwidth : (hi - lo).isFinite)
    (hx : lo ≤ x ∧ x ≤ hi) : lo ≤ (m.push x).mean ∧ (m.push x).mean ≤ hi := by
  by_cases hcount : m.count = 0
  · obtain ⟨hhi, hlo⟩ := Binary64.isFinite_of_sub hwidth
    have hplace := place?_mean_push_first hcount (h.start hcount)
      (Binary64.isFinite_of_bounds hlo hhi hx)
    rwa [Binary64.le_congr_right hplace, Binary64.le_congr_left hplace]
  · have hmean := h.mean hcount
    rcases (h.mean_between hwidth hx).2 with ⟨hlow, hhigh⟩ | ⟨hlow, hhigh⟩
    · exact ⟨Binary64.le_trans hmean.1 hlow, Binary64.le_trans hhigh hx.2⟩
    · exact ⟨Binary64.le_trans hx.1 hlow, Binary64.le_trans hhigh hmean.2⟩

theorem Bounded.push (h : m.Bounded lo hi) (hwidth : (hi - lo).isFinite)
    (hx : lo ≤ x ∧ x ≤ hi) : (m.push x).Bounded lo hi := by
  obtain ⟨hfinite, hbetween⟩ := h.mean_between hwidth hx
  refine ⟨fun hzero => absurd hzero (Nat.succ_ne_zero _), fun _ => h.mean_push hwidth hx, ?_⟩
  rw [spread_push]
  exact Binary64.zero_le_add h.spread (Binary64.zero_le_sub_mul_sub hfinite hbetween)

theorem bounded_ofList (hwidth : (hi - lo).isFinite) (hxs : ∀ x ∈ xs, lo ≤ x ∧ x ≤ hi) :
    (ofList xs).Bounded lo hi :=
  List.foldlRecOn xs push (bounded_empty lo hi) fun _ h x hx => h.push hwidth (hxs x hx)

theorem zero_le_variance (hcount : m.count ≤ countLimit) (h : 0 ≤ m.spread) : 0 ≤ m.variance := by
  unfold variance
  split
  · decide +kernel
  · next hne =>
    rw [Binary64.natCast_eq_ofNat]
    exact Binary64.zero_le_div_ofNat h (Nat.pos_of_ne_zero hne) hcount

end Moments

/-! ## Extremes -/

/-- The least and the greatest of some values. -/
structure Extremes (xs : List Binary64) (lo hi : Binary64) : Prop where
  least : lo ∈ xs
  greatest : hi ∈ xs
  within : ∀ x ∈ xs, lo ≤ x ∧ x ≤ hi

section Extremes
variable {xs : List Binary64} {x lo hi : Binary64}

theorem Extremes.singleton (h : x.isNan = false) : Extremes [x] x x where
  least := List.mem_singleton_self x
  greatest := List.mem_singleton_self x
  within := fun y hy => by
    rw [List.mem_singleton.1 hy]
    exact ⟨Binary64.le_self h, Binary64.le_self h⟩

theorem Extremes.exists_cons (h : Extremes xs lo hi) (hx : x.isNan = false) :
    ∃ lo' hi', Extremes (x :: xs) lo' hi' := by
  have hlo := Binary64.isNan_of_le (h.within lo h.least).1
  have hhi := Binary64.isNan_right_of_le (h.within hi h.greatest).1
  obtain ⟨lo', hlo', hleast, hbelow⟩ : ∃ lo' ∈ x :: xs, lo' ≤ x ∧ lo' ≤ lo := by
    by_cases hle : x ≤ lo
    · exact ⟨x, List.mem_cons_self, Binary64.le_self hx, hle⟩
    · exact ⟨lo, List.mem_cons_of_mem _ h.least,
        Binary64.le_of_lt (Binary64.lt_of_not_le hlo hx hle), Binary64.le_self hlo⟩
  obtain ⟨hi', hhi', hgreatest, habove⟩ : ∃ hi' ∈ x :: xs, x ≤ hi' ∧ hi ≤ hi' := by
    by_cases hle : hi ≤ x
    · exact ⟨x, List.mem_cons_self, Binary64.le_self hx, hle⟩
    · exact ⟨hi, List.mem_cons_of_mem _ h.greatest,
        Binary64.le_of_lt (Binary64.lt_of_not_le hx hhi hle), Binary64.le_self hhi⟩
  refine ⟨lo', hi', hlo', hhi', fun y hy => ?_⟩
  rcases List.mem_cons.1 hy with rfl | hy
  · exact ⟨hleast, hgreatest⟩
  · obtain ⟨hlow, hhigh⟩ := h.within y hy
    exact ⟨Binary64.le_trans hbelow hlow, Binary64.le_trans hhigh habove⟩

theorem exists_extremes (hne : xs ≠ []) (hnan : ∀ x ∈ xs, x.isNan = false) :
    ∃ lo hi, Extremes xs lo hi := by
  induction xs with
  | nil => exact absurd rfl hne
  | cons x rest ih =>
    have hx := hnan x List.mem_cons_self
    by_cases hrest : rest = []
    · rw [hrest]
      exact ⟨x, x, .singleton hx⟩
    · obtain ⟨lo, hi, h⟩ := ih hrest fun y hy => hnan y (List.mem_cons_of_mem _ hy)
      exact h.exists_cons hx

/-- After every push of values whose least and greatest are no further apart than the doubles reach,
the mean lies between the least and the greatest value so far, and the spread is a number and not
below zero. So are the variance and the standard deviation, for any number of values that a counter
can hold. -/
theorem mean_between_extremes (h : Extremes xs lo hi) (hwidth : (hi - lo).isFinite)
    {front : List Binary64} (hfront : front <+: xs) (hne : front ≠ []) :
    ∃ least greatest, Extremes front least greatest ∧
      least ≤ (Moments.ofList front).mean ∧ (Moments.ofList front).mean ≤ greatest ∧
      0 ≤ (Moments.ofList front).spread ∧
      (front.length ≤ countLimit →
        0 ≤ (Moments.ofList front).variance ∧ 0 ≤ (Moments.ofList front).stddev) := by
  have hwithin : ∀ x ∈ front, lo ≤ x ∧ x ≤ hi := fun x hx => h.within x (hfront.subset hx)
  obtain ⟨least, greatest, hextremes⟩ :=
    exists_extremes hne fun x hx => Binary64.isNan_right_of_le (hwithin x hx).1
  have hnarrow := Binary64.isFinite_sub_of_bounds hwidth (hwithin greatest hextremes.greatest)
    (hwithin least hextremes.least)
  have hbounded := Moments.bounded_ofList hnarrow hextremes.within
  obtain ⟨hlow, hhigh⟩ := hbounded.mean (Moments.count_ofList_ne_zero hne)
  refine ⟨least, greatest, hextremes, hlow, hhigh, hbounded.spread, fun hlimit => ?_⟩
  have hvariance := Moments.zero_le_variance (by rwa [Moments.count_ofList]) hbounded.spread
  exact ⟨hvariance, Binary64.zero_le_sqrt hvariance⟩

/-- Values so far apart that the first square overflows. The mean stays between them. -/
theorem mean_between_far_values :
    let lo := Binary64.ofDecimal true ⟨5, 307⟩
    let hi := Binary64.ofDecimal false ⟨1, 308⟩
    let xs := [hi, lo, Binary64.ofDecimal false ⟨5, -324⟩]
    (hi - lo).isFinite ∧ (Moments.ofList xs).spread = .inf false ∧
      lo ≤ (Moments.ofList xs).mean ∧ (Moments.ofList xs).mean ≤ hi ∧
      0 ≤ (Moments.ofList xs).spread ∧ 0 ≤ (Moments.ofList xs).stddev := by
  intro lo hi xs
  have hwidth : (hi - lo).isFinite := by decide +kernel
  have hextremes : Extremes xs lo hi := ⟨by decide +kernel, by decide +kernel, by decide +kernel⟩
  have hspread : (Moments.ofList xs).spread = .inf false := by decide +kernel
  obtain ⟨least, greatest, hfront, hlow, hhigh, hzero, hvariance⟩ :=
    mean_between_extremes hextremes hwidth (List.prefix_refl xs) (List.cons_ne_nil _ _)
  exact ⟨hwidth, hspread,
    Binary64.le_trans (hextremes.within least hfront.least).1 hlow,
    Binary64.le_trans hhigh (hextremes.within greatest hfront.greatest).2, hzero,
    (hvariance (by decide +kernel)).2⟩

end Extremes

end Ratchet
