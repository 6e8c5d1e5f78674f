import Ratchet.Proofs.Bounds
import Ratchet.Proofs.Convergence

/-!
# Looser settings

A wider band and a smaller share ask for less: what has converged under some settings has converged,
with the same baseline, under settings that loosen them (`ConvergenceSettings.Loosens`), and what
falls short under the looser ones fell short before, at the same metric or an earlier one.

A band grows with `sigma` also where it is rounded, infinite or zero (`Binary64.mul_le_mul_right`),
and if the deviation is not a number neither band keeps anything. The share grows with the number of
retained samples (`Binary64.share_mono`). Nothing is asked of the tally, which may hold whatever
numbers were observed.
-/

namespace Ratchet

namespace Binary64

variable {x y z : Binary64} {n n' t : Nat}

theorem exists_finite_of_pos (hx : x.isFinite) (h : 0 < x) :
    ∃ a, x = finite false a ∧ 0 < a.units := by
  rcases cases_of_zero_le (le_of_lt h) with rfl | ⟨a, rfl⟩ | rfl
  · cases hx
  · rw [lt_iff_of_place place?_zero rfl] at h
    exact ⟨a, rfl, Int.ofNat_lt.1 h⟩
  · exact absurd h (not_pos_zero true)

theorem mul_le_mul_right (hx : x.isFinite) (hpos : 0 < x) (hy : y.isFinite) (h : x ≤ y)
    (hz : ¬ z < 0) (hnan : z.isNan = false) : x * z ≤ y * z := by
  cases z with
  | nan => cases hnan
  | inf s =>
    cases s with
    | false =>
      obtain ⟨a, rfl, ha⟩ := exists_finite_of_pos hx hpos
      obtain ⟨b, rfl, hb⟩ := exists_finite_of_pos hy (lt_of_lt_of_le hpos h)
      rw [finite_mul_inf, finite_mul_inf, if_neg (by omega), if_neg (by omega)]
      exact le_inf rfl
    | true => exact absurd (by decide +kernel : inf true < 0) hz
  | finite => exact mul_le_mul_of_isFinite hx (le_of_lt hpos) hy h rfl hz

theorem share_mono (h : n ≤ n') (ht : 0 < t) (hpos : 0 < ofNat n / ofNat t) :
    ofNat n / ofNat t ≤ ofNat n' / ofNat t := by
  have hnan := isNan_right_of_le (le_of_lt hpos)
  rcases ofNat_cases t with hinf | ⟨c, hc⟩
  -- A share of infinitely many would be zero or not a number.
  · rw [hinf] at hpos
    rcases ofNat_cases n with hn | ⟨a, ha⟩
    · rw [hn] at hpos
      exact absurd hpos (not_lt_nan 0)
    · rw [ha] at hpos
      exact absurd hpos (not_pos_zero _)
  · have hunits := Nat.lt_of_lt_of_le Magnitude.zero_lt_one (one_le_units_of_ofNat ht hc)
    rcases ofNat_cases n' with hn' | ⟨b, hb⟩
    · rw [hn', hc]
      rw [hc] at hnan
      exact le_inf hnan
    · obtain ⟨a, ha, hle⟩ := exists_ofNat_of_le h hb
      rw [ha, hb, hc, finite_div_finite (by omega), finite_div_finite (by omega)]
      exact nearest_le_nearest hunits hunits
        (Nat.mul_le_mul_right _ (Nat.mul_le_mul_right _ hle))

end Binary64

/-- A wider band, and a share that is no larger. -/
structure ConvergenceSettings.Loosens (loose tight : ConvergenceSettings) : Prop where
  sigma : tight.sigma ≤ loose.sigma
  acceptance : loose.acceptance ≤ tight.acceptance

variable {tight loose : ConvergenceSettings} {s : Samples}

theorem Samples.retained_le (htight : tight.check = .ok ()) (hloose : loose.check = .ok ())
    (h : loose.Loosens tight) (s : Samples) :
    s.retained tight.sigma ≤ s.retained loose.sigma := by
  obtain ⟨hfinite, hpos⟩ := ConvergenceSettings.sigmaInRange_iff.1
    (ConvergenceSettings.check_eq_ok.1 htight).1
  obtain ⟨hfinite', -⟩ := ConvergenceSettings.sigmaInRange_iff.1
    (ConvergenceSettings.check_eq_ok.1 hloose).1
  unfold retained
  split
  · exact Nat.le_refl _
  · refine Array.countP_mono_left fun v _ hkept => ?_
    have hkept : (v - s.moments.mean).abs < tight.sigma * s.moments.stddev := hkept
    -- A value that is kept compares with the band, so the deviation is a number.
    have hnan := Binary64.isNan_right_of_mul (Binary64.isNan_right_of_le (Binary64.le_of_lt hkept))
    exact Binary64.lt_of_lt_of_le hkept (Binary64.mul_le_mul_right hfinite hpos hfinite' h.sigma
      (Binary64.not_sqrt_lt_zero _) hnan)

theorem Samples.meets_of_loosens (htight : tight.check = .ok ()) (hloose : loose.check = .ok ())
    (h : loose.Loosens tight) (hmeets : s.meets tight) : s.meets loose := by
  unfold meets meetsAcceptance at *
  split
  · rfl
  · next hcount =>
    rw [if_neg hcount] at hmeets
    have hmeets : tight.acceptance ≤ .ofNat (s.retained tight.sigma) / .ofNat s.moments.count :=
      hmeets
    have hpos := (ConvergenceSettings.acceptanceInRange_iff.1
      (ConvergenceSettings.check_eq_ok.1 htight).2).1
    have hmore := Binary64.share_mono (retained_le htight hloose h s) (Nat.pos_of_ne_zero hcount)
      (Binary64.lt_of_lt_of_le hpos hmeets)
    exact Binary64.le_trans h.acceptance (Binary64.le_trans hmeets hmore)

namespace Convergence

/-- Loosening never hurts, whatever has been tallied: every metric retains at least as many samples,
what has converged converges with the same baseline, and a shortfall that is left was preceded by
one at the same metric or at an earlier one. -/
theorem evaluate_of_loosens (htight : tight.check = .ok ()) (hloose : loose.check = .ok ())
    (h : loose.Loosens tight) (t : Tally) :
    (∀ name s, t.get? name = some s → s.retained tight.sigma ≤ s.retained loose.sigma) ∧
      (∀ b, evaluate t tight = .ok (.converged b) → evaluate t loose = .ok (.converged b)) ∧
      ∀ short, evaluate t loose = .ok (.shortfall short) →
        ∃ first, evaluate t tight = .ok (.shortfall first) ∧ first.name ≤ short.name := by
  rw [evaluate_eq_ok t htight, evaluate_eq_ok t hloose]
  refine ⟨fun _ s _ => s.retained_le htight hloose h, fun b hb => ?_, fun short hshort => ?_⟩
  · rcases judge_cases tight t with ⟨hall, hjudge⟩ | ⟨_, _, _, _, _, _, _, hjudge⟩
    · rw [hjudge] at hb
      cases hb
      have hall' := fun e he => Samples.meets_of_loosens htight hloose h (hall e he)
      exact congrArg _ (judge_of_meets hall' .empty)
    · rw [hjudge] at hb
      cases hb
  · rcases judge_cases loose t with
      ⟨_, hjudge⟩ | ⟨front, name, s, back, hentries, hfront, hs, hjudge⟩
    · rw [hjudge] at hshort
      cases hshort
    · rw [hjudge] at hshort
      cases hshort
      have hmem : (name, s) ∈ t.entries := by
        rw [hentries]
        exact List.mem_append_right _ List.mem_cons_self
      have hfails : ∀ hmeets : s.meets tight, False := fun hmeets => by
        rw [Samples.meets_of_loosens htight hloose h hmeets] at hs
        cases hs
      rcases judge_cases tight t with
        ⟨hall, _⟩ | ⟨front', name', s', back', hentries', hfront', _, hjudge'⟩
      · exact absurd (hall _ hmem) hfails
      · refine ⟨_, congrArg _ hjudge', fun hlt => hfails ?_⟩
        exact hfront' _ (NameMap.mem_front_of_lt hentries' hmem hlt)

open Tally (ofObservations) in
/-- Twenty percent outside the band are tolerated under either settings. An infinite value is not,
and neither are two values one deviation from their mean, until the band is wider. -/
theorem evaluate_of_loosens_infinite_value :
    let tight : ConvergenceSettings := ⟨.ofNat 1, .ofDecimal false ⟨8, -1⟩⟩
    let loose : ConvergenceSettings := ⟨.ofNat 3, .ofDecimal false ⟨5, -1⟩⟩
    let noisy := ofObservations [⟨"a", 0⟩, ⟨"a", 0⟩, ⟨"a", 0⟩, ⟨"a", 0⟩, ⟨"a", .ofNat 10⟩]
    let mixed := ofObservations [⟨"b", .inf false⟩, ⟨"a", 0⟩, ⟨"a", .ofNat 10⟩]
    tight.check = .ok () ∧ loose.check = .ok () ∧ loose.Loosens tight ∧
      (∃ b, evaluate noisy tight = .ok (.converged b) ∧
        evaluate noisy loose = .ok (.converged b)) ∧
      evaluate mixed loose = .ok (.shortfall ⟨"b", 0, 1⟩) ∧
      ∃ first, evaluate mixed tight = .ok (.shortfall first) ∧ first = ⟨"a", 0, 2⟩ ∧
        first.name ≤ "b" := by
  intro tight loose noisy mixed
  have htight : tight.check = .ok () :=
    ConvergenceSettings.check_eq_ok.2 ⟨by decide +kernel, by decide +kernel⟩
  have hloose : loose.check = .ok () :=
    ConvergenceSettings.check_eq_ok.2 ⟨by decide +kernel, by decide +kernel⟩
  have h : loose.Loosens tight := ⟨by decide +kernel, by decide +kernel⟩
  have hentry : ((evaluate noisy tight).toOption.bind (Verdict.entryAt "a")).isSome := by
    decide +kernel
  obtain ⟨e, he⟩ := Option.isSome_iff_exists.1 hentry
  obtain ⟨b, hb, -⟩ := Verdict.exists_of_entryAt_eq_some he
  have hshort : evaluate mixed loose = .ok (.shortfall ⟨"b", 0, 1⟩) :=
    Verdict.eq_of_shortfall?_eq_some (by decide +kernel)
  have hfirst : evaluate mixed tight = .ok (.shortfall ⟨"a", 0, 2⟩) :=
    Verdict.eq_of_shortfall?_eq_some (by decide +kernel)
  obtain ⟨-, hconverged, -⟩ := evaluate_of_loosens htight hloose h noisy
  obtain ⟨-, -, hfalls⟩ := evaluate_of_loosens htight hloose h mixed
  obtain ⟨first, hevaluate, hle⟩ := hfalls _ hshort
  cases hfirst.symm.trans hevaluate
  exact ⟨htight, hloose, h, ⟨b, hb, hconverged b hb⟩, hshort, _, hfirst, rfl, hle⟩

end Convergence

end Ratchet
