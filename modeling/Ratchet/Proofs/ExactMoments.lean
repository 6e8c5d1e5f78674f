import Mathlib.Algebra.BigOperators.Group.List.Basic
import Mathlib.Algebra.Order.BigOperators.Group.List
import Mathlib.Algebra.Order.Ring.Rat
import Mathlib.Tactic.FieldSimp
import Mathlib.Tactic.Positivity
import Mathlib.Tactic.Ring
import Ratchet.Moments

/-!
# Exact running statistics

Over the rationals the running statistics are the ones that two passes over all values give: first
their `average`, then the `squares`, the sum of the squared distances to it. `Moments.Describes` is
the invariant. The mean moves with every value, and all distances with it; `squares_eq_add` says how
the squares around one number come from those around another, and around the average that is by the
count times the squared distance alone. So a push adds just what its product is.
-/

namespace Ratchet

variable {xs ys : List ℚ} {x c c' : ℚ}

def average (xs : List ℚ) : ℚ := xs.sum / xs.length

/-- The sum of the squared distances of values to a number. -/
def squares (c : ℚ) (xs : List ℚ) : ℚ := (xs.map fun x => (x - c) ^ 2).sum

theorem squares_nonneg (c : ℚ) (xs : List ℚ) : 0 ≤ squares c xs := by
  refine List.sum_nonneg fun d hd => ?_
  obtain ⟨x, -, rfl⟩ := List.mem_map.1 hd
  exact sq_nonneg _

theorem squares_eq_zero_iff : squares c xs = 0 ↔ ∀ x ∈ xs, x = c := by
  constructor
  · intro h x hx
    have hall : ∀ d ∈ xs.map fun x => (x - c) ^ 2, 0 ≤ d := fun d hd => by
      obtain ⟨x, -, rfl⟩ := List.mem_map.1 hd
      exact sq_nonneg _
    have hzero := List.all_zero_of_le_zero_le_of_sum_eq_zero hall h (List.mem_map_of_mem hx)
    exact sub_eq_zero.1 (pow_eq_zero_iff two_ne_zero |>.1 hzero)
  · intro h
    refine List.sum_eq_zero fun d hd => ?_
    obtain ⟨x, hx, rfl⟩ := List.mem_map.1 hd
    rw [h x hx, sub_self, zero_pow two_ne_zero]

theorem squares_cons (c x : ℚ) (xs : List ℚ) :
    squares c (x :: xs) = (x - c) ^ 2 + squares c xs := List.sum_cons

theorem squares_append_singleton (c : ℚ) (xs : List ℚ) (x : ℚ) :
    squares c (xs ++ [x]) = squares c xs + (x - c) ^ 2 := by
  simp [squares]

theorem squares_eq_add (c c' : ℚ) (xs : List ℚ) :
    squares c' xs =
      squares c xs + 2 * (c - c') * (xs.sum - xs.length * c) + xs.length * (c - c') ^ 2 := by
  induction xs with
  | nil => simp [squares]
  | cons x rest ih =>
    rw [squares_cons, squares_cons, ih, List.sum_cons, List.length_cons]
    push_cast
    ring

theorem average_perm (h : ys.Perm xs) : average ys = average xs := by
  rw [average, average, h.sum_eq, h.length_eq]

theorem squares_perm (h : ys.Perm xs) : squares c ys = squares c xs :=
  (h.map _).sum_eq

theorem forall_eq_average_iff : (∀ x ∈ xs, x = average xs) ↔ ∀ x ∈ xs, ∀ y ∈ xs, x = y := by
  constructor
  · intro h x hx y hy
    rw [h x hx, h y hy]
  · intro h x hx
    have hsum : xs.sum = xs.length * x := by
      rw [List.sum_eq_card_nsmul xs x fun y hy => h y hy x hx, nsmul_eq_mul]
    have hlength : (xs.length : ℚ) ≠ 0 :=
      Nat.cast_ne_zero.2 (List.length_pos_of_mem hx).ne'
    rw [average, hsum, mul_div_cancel_left₀ x hlength]

/-! ## One pass -/

namespace Moments

variable {m : Moments ℚ}

/-- The statistics of a list, the mean in the form that divides by nothing. -/
structure Describes (m : Moments ℚ) (xs : List ℚ) : Prop where
  count : m.count = xs.length
  sum : m.mean * xs.length = xs.sum
  spread : m.spread = squares m.mean xs

theorem describes_empty : (empty : Moments ℚ).Describes [] where
  count := rfl
  sum := by simp [empty]
  spread := rfl

theorem Describes.push (h : m.Describes xs) (x : ℚ) : (m.push x).Describes (xs ++ [x]) := by
  have hcount : (((m.count + 1 : Nat)) : ℚ) = xs.length + 1 := by
    rw [h.count]
    push_cast
    ring
  have hpos : (xs.length : ℚ) + 1 ≠ 0 := by positivity
  have hmean : (m.push x).mean = m.mean + (x - m.mean) / (xs.length + 1) := by
    rw [← hcount]
    rfl
  refine ⟨?_, ?_, ?_⟩
  · rw [count_push, h.count, List.length_append, List.length_singleton]
  · rw [hmean, List.sum_append, List.sum_singleton, List.length_append, List.length_singleton,
      ← h.sum]
    push_cast
    field_simp
    ring
  · rw [spread_push, squares_append_singleton, squares_eq_add m.mean, ← h.sum, h.spread, hmean]
    field_simp
    ring

theorem Describes.foldl_push (h : m.Describes xs) (ys : List ℚ) :
    (ys.foldl Moments.push m).Describes (xs ++ ys) := by
  induction ys generalizing m xs with
  | nil => rwa [List.append_nil]
  | cons y rest ih =>
    have hrest := ih (h.push y)
    rwa [List.append_assoc, List.singleton_append] at hrest

theorem describes_ofList (xs : List ℚ) : (ofList xs).Describes xs :=
  describes_empty.foldl_push xs

theorem Describes.mean (h : m.Describes xs) (hne : xs ≠ []) : m.mean = average xs := by
  have hlength : (xs.length : ℚ) ≠ 0 := Nat.cast_ne_zero.2 (List.length_pos_iff.2 hne).ne'
  rw [average, ← h.sum, mul_div_cancel_right₀ _ hlength]

/-- What a list of values is described by is known from its count, its sum and its squares. -/
theorem Describes.eq_of_perm {m' : Moments ℚ} (h : m.Describes xs) (h' : m'.Describes ys)
    (hperm : ys.Perm xs) (hne : xs ≠ []) : m' = m := by
  have hne' : ys ≠ [] := fun hnil => hne (List.nil_perm.1 (hnil ▸ hperm))
  have hmean : m'.mean = m.mean := by
    rw [h.mean hne, h'.mean hne', average_perm hperm]
  have hspread : m'.spread = m.spread := by
    rw [h.spread, h'.spread, hmean, squares_perm hperm]
  have hcount : m'.count = m.count := by
    rw [h.count, h'.count, hperm.length_eq]
  cases m
  cases m'
  cases hcount
  cases hmean
  cases hspread
  rfl

/-- Pushed one after the other, values have the statistics of two passes over all of them: their
number, their average, the squares around it, and the population variance. The spread is never
negative, and zero exactly if all values are equal; the order of the values makes no difference. -/
theorem ofList_eq_two_pass (h : xs ≠ []) :
    (ofList xs).count = xs.length ∧ (ofList xs).mean = average xs ∧
      (ofList xs).spread = squares (average xs) xs ∧
      (ofList xs).variance = squares (average xs) xs / xs.length ∧
      0 ≤ (ofList xs).spread ∧
      ((ofList xs).spread = 0 ↔ ∀ x ∈ xs, ∀ y ∈ xs, x = y) ∧
      ∀ ys : List ℚ, ys.Perm xs → ofList ys = ofList xs := by
  have hdescribes := describes_ofList xs
  have hmean := hdescribes.mean h
  have hspread := hdescribes.spread
  rw [hmean] at hspread
  have hcount : (ofList xs).count ≠ 0 := by
    rw [hdescribes.count]
    exact (List.length_pos_iff.2 h).ne'
  refine ⟨hdescribes.count, hmean, hspread, ?_, ?_, ?_, fun ys hperm => ?_⟩
  · rw [variance, if_neg hcount, hspread, hdescribes.count]
  · rw [hspread]
    exact squares_nonneg _ _
  · rw [hspread, squares_eq_zero_iff, forall_eq_average_iff]
  · exact hdescribes.eq_of_perm (describes_ofList ys) hperm h

/-- Three values and another order of them. -/
theorem ofList_three_values :
    let xs : List ℚ := [1, 2, 4]
    (ofList xs).mean = 7 / 3 ∧ (ofList xs).variance = 14 / 9 ∧ (ofList xs).spread ≠ 0 ∧
      ofList [4, 1, 2] = ofList xs := by
  intro xs
  obtain ⟨-, hmean, -, hvariance, -, hzero, hperm⟩ :=
    ofList_eq_two_pass (show xs ≠ [] from List.cons_ne_nil _ _)
  refine ⟨hmean.trans (by decide +kernel), hvariance.trans (by decide +kernel), ?_,
    hperm _ (by decide)⟩
  rw [Ne, hzero]
  exact fun h => absurd (h 1 (by decide +kernel) 2 (by decide +kernel)) (by decide +kernel)

end Moments

end Ratchet
