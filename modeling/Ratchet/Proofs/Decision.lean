import Ratchet.Proofs.Convergence
import Ratchet.Proofs.Recording
import Ratchet.Proofs.Share

/-!
# The decision of the convergence gate

`Converged` is the condition on the values of one metric: those that the band around their mean
keeps are a large enough share of all. `FirstShortfall` is what a refusal says: the first metric in
name order whose values do not meet the condition, with how many were kept. The gate gives the
statistics of every metric if all of them meet the condition, and the first shortfall otherwise
(`evaluate_cases`), and this decides between any two answers since a first shortfall is unique.

A metric that falls short has lost some of its values: all of them together would be a share of one,
which no acceptance exceeds.
-/

namespace Ratchet

open Tally (ofObservations)

variable {settings : ConvergenceSettings} {xs : List Binary64} {obs : List Observation}

/-- Whether the band around the mean keeps a value. Without spread every value is kept. -/
def Moments.keeps (m : Moments Binary64) (sigma v : Binary64) : Bool :=
  m.spread.isZero || (v - m.mean).abs.lt (sigma * m.stddev)

/-- How many values the band around their own mean keeps. -/
def keptCount (sigma : Binary64) (xs : List Binary64) : Nat :=
  xs.countP ((Moments.ofList xs).keeps sigma)

/-- The kept values are a large enough share of all. -/
def Converged (settings : ConvergenceSettings) (xs : List Binary64) : Prop :=
  settings.acceptance ≤ .ofNat (keptCount settings.sigma xs) / .ofNat xs.length

theorem retained_ofValues (sigma : Binary64) (xs : List Binary64) :
    (Samples.ofValues xs).retained sigma = keptCount sigma xs := by
  unfold Samples.retained keptCount
  rw [Samples.moments_ofValues, Samples.values_ofValues, List.countP_toArray]
  split
  · next hzero =>
    have hall : ∀ v ∈ xs, (Moments.ofList xs).keeps sigma v := fun v _ => by
      simp [Moments.keeps, hzero]
    rw [Moments.count_ofList, List.countP_eq_length.2 hall]
  · next hspread =>
    refine List.countP_congr fun v _ => ?_
    simp [Moments.keeps, hspread]

theorem meets_ofValues_iff (h : xs ≠ []) :
    (Samples.ofValues xs).meets settings ↔ Converged settings xs := by
  unfold Samples.meets meetsAcceptance Converged
  rw [retained_ofValues, Samples.moments_ofValues, Moments.count_ofList,
    if_neg fun e => h (List.eq_nil_of_length_eq_zero e)]
  exact Iff.rfl

theorem keptCount_le_length (sigma : Binary64) (xs : List Binary64) :
    keptCount sigma xs ≤ xs.length := List.countP_le_length

theorem converged_of_keptCount_eq
    (hrange : ConvergenceSettings.acceptanceInRange settings.acceptance) (hne : xs ≠ [])
    (hlimit : xs.length ≤ countLimit)
    (h : keptCount settings.sigma xs = xs.length) : Converged settings xs := by
  unfold Converged
  rw [h, Binary64.share_self (List.length_pos_iff.2 hne) hlimit]
  exact (ConvergenceSettings.acceptanceInRange_iff.1 hrange).2

/-! ## All metrics -/

/-- The first metric in name order that does not meet the condition, and how much of it was kept. -/
structure FirstShortfall (settings : ConvergenceSettings) (obs : List Observation)
    (short : Shortfall) : Prop where
  observed : valuesOf short.name obs ≠ []
  falls : ¬ Converged settings (valuesOf short.name obs)
  first : ∀ name, name < short.name → valuesOf name obs ≠ [] →
    Converged settings (valuesOf name obs)
  retained : short.retained = keptCount settings.sigma (valuesOf short.name obs)
  total : short.total = (valuesOf short.name obs).length

theorem FirstShortfall.unique {short short' : Shortfall} (h : FirstShortfall settings obs short)
    (h' : FirstShortfall settings obs short') : short = short' := by
  have hname : short.name = short'.name := Decidable.byContradiction fun hne => by
    by_cases hlt : short.name < short'.name
    · exact h.falls (h'.first short.name hlt h.observed)
    · exact h'.falls (h.first short'.name (name_lt_of_not_lt hlt hne) h'.observed)
  obtain ⟨name, retained, total⟩ := short
  obtain ⟨name', retained', total'⟩ := short'
  cases hname
  rw [Shortfall.mk.injEq]
  exact ⟨rfl, h.retained.trans h'.retained.symm, h.total.trans h'.total.symm⟩

theorem meets_of_mem_entries (settings : ConvergenceSettings) {name : String} {s : Samples}
    (h : (name, s) ∈ (ofObservations obs).entries) :
    valuesOf name obs ≠ [] ∧ s = .ofValues (valuesOf name obs) ∧
      (s.meets settings ↔ Converged settings (valuesOf name obs)) := by
  obtain ⟨hobserved, rfl⟩ := Tally.mem_entries_ofObservations_iff.1 h
  have hne := valuesOf_ne_nil_iff.2 hobserved
  exact ⟨hne, rfl, meets_ofValues_iff hne⟩

theorem evaluate_cases (hs : settings.check = .ok ()) (obs : List Observation) :
    (∀ name, valuesOf name obs ≠ [] → Converged settings (valuesOf name obs)) ∧
        Convergence.evaluate (ofObservations obs) settings =
          .ok (.converged (ofObservations obs).baseline) ∨
      ∃ short, FirstShortfall settings obs short ∧
        Convergence.evaluate (ofObservations obs) settings = .ok (.shortfall short) := by
  rw [Convergence.evaluate_eq_ok _ hs]
  rcases Convergence.judge_cases settings (ofObservations obs) with
    ⟨hall, hjudge⟩ | ⟨before, name, s, after, hentries, hbefore, hshort, hjudge⟩
  · refine .inl ⟨fun name hne => ?_, congrArg Except.ok hjudge⟩
    obtain ⟨o, ho, rfl⟩ := valuesOf_ne_nil_iff.1 hne
    exact (meets_ofValues_iff hne).1 (meets_ofObservations_iff.1 hall o ho)
  · have hmem : (name, s) ∈ (ofObservations obs).entries := hentries ▸ by simp
    obtain ⟨hne, hsamples, hmeets⟩ := meets_of_mem_entries settings hmem
    refine .inr ⟨_, ⟨hne, ?_, fun name' hlt hne' => ?_, ?_, ?_⟩, congrArg Except.ok hjudge⟩
    · rw [← hmeets, hshort]
      exact Bool.false_ne_true
    · obtain ⟨o, ho, rfl⟩ := valuesOf_ne_nil_iff.1 hne'
      have hmem' : (o.name, Samples.ofValues (valuesOf o.name obs)) ∈
          (ofObservations obs).entries :=
        Tally.mem_entries_ofObservations_iff.2 ⟨⟨o, ho, rfl⟩, rfl⟩
      exact (meets_ofValues_iff hne').1
        (hbefore _ (NameMap.mem_front_of_lt hentries hmem' hlt))
    · rw [hsamples, retained_ofValues]
    · rw [hsamples, Samples.moments_ofValues, Moments.count_ofList]

theorem evaluate_eq_converged_iff (hs : settings.check = .ok ()) {b : Baseline} :
    Convergence.evaluate (ofObservations obs) settings = .ok (.converged b) ↔
      (∀ name, valuesOf name obs ≠ [] → Converged settings (valuesOf name obs)) ∧
        b = (ofObservations obs).baseline := by
  rcases evaluate_cases hs obs with ⟨hall, heval⟩ | ⟨short, hshort, heval⟩
  · rw [heval]
    constructor
    · intro h
      cases h
      exact ⟨hall, rfl⟩
    · rintro ⟨-, rfl⟩
      rfl
  · rw [heval]
    constructor
    · intro h
      cases h
    · rintro ⟨hall, -⟩
      exact absurd (hall _ hshort.observed) hshort.falls

theorem evaluate_eq_shortfall_iff (hs : settings.check = .ok ()) {short : Shortfall} :
    Convergence.evaluate (ofObservations obs) settings = .ok (.shortfall short) ↔
      FirstShortfall settings obs short := by
  rcases evaluate_cases hs obs with ⟨hall, heval⟩ | ⟨first, hfirst, heval⟩
  · rw [heval]
    constructor
    · intro h
      cases h
    · intro h
      exact absurd (hall _ h.observed) h.falls
  · rw [heval]
    constructor
    · intro h
      cases h
      exact hfirst
    · intro h
      rw [hfirst.unique h]

theorem FirstShortfall.total_pos {short : Shortfall} (h : FirstShortfall settings obs short) :
    0 < short.total := by
  rw [h.total]
  exact List.length_pos_iff.2 h.observed

theorem FirstShortfall.retained_lt_total {short : Shortfall}
    (h : FirstShortfall settings obs short) (hs : settings.check = .ok ())
    (hlimit : short.total ≤ countLimit) : short.retained < short.total := by
  have hrange := (ConvergenceSettings.check_eq_ok.1 hs).2
  rw [h.total] at hlimit
  rw [h.retained, h.total]
  refine Nat.lt_of_le_of_ne (keptCount_le_length _ _) fun heq => ?_
  exact h.falls (converged_of_keptCount_eq hrange h.observed hlimit heq)

/-- The share of what was kept lies below an acceptance of at most one. -/
theorem FirstShortfall.percent_lt {short : Shortfall} (h : FirstShortfall settings obs short)
    (hs : settings.check = .ok ()) (hlimit : short.total ≤ countLimit) :
    short.percent.isFinite ∧ 0 ≤ short.percent ∧ short.percent < .ofNat 100 := by
  have hrange := (ConvergenceSettings.check_eq_ok.1 hs).2
  have hone := (ConvergenceSettings.acceptanceInRange_iff.1 hrange).2
  have hfalls := h.falls
  unfold Converged at hfalls
  rw [← h.retained, ← h.total] at hfalls
  obtain ⟨m, hshare, -⟩ := Binary64.exists_share_eq_finite
    (Nat.le_of_lt (h.retained_lt_total hs hlimit)) h.total_pos hlimit
  rw [hshare] at hfalls
  have hlt : Binary64.finite false m < .ofNat 1 :=
    Binary64.lt_of_lt_of_le (Binary64.lt_of_not_le rfl (Binary64.isNan_of_le hone) hfalls) hone
  unfold Shortfall.percent
  rw [hshare]
  exact Binary64.mul_hundred_lt hlt

/-- A baseline of the mean and the standard deviation of every metric, and of nothing else. -/
def Summarizes (b : Baseline) (obs : List Observation) : Prop :=
  ∀ name, b.get? name =
    if valuesOf name obs = [] then none
    else some ⟨(Moments.ofList (valuesOf name obs)).mean,
      (Moments.ofList (valuesOf name obs)).stddev⟩

theorem eq_baseline_ofObservations_iff {b : Baseline} :
    b = (ofObservations obs).baseline ↔ Summarizes b obs := by
  simp only [Summarizes, ← Samples.moments_ofValues]
  constructor
  · rintro rfl name
    exact get?_baseline_ofObservations obs name
  · intro h
    exact NameMap.ext_get? fun name => (h name).trans (get?_baseline_ofObservations obs name).symm

/-- After any calls, failed reads among them, the gate decides by the values of every metric. All of
them meet the condition, and the baseline has the mean and the standard deviation of each metric; or
the first in name order that does not is reported, with how many values it has and how many of them
were kept. Those are fewer than all, for any number of values that a counter can hold, and so the
percentage lies below a hundred. -/
theorem evaluate_after_calls (hs : settings.check = .ok ()) (calls : List Recording) :
    let t := calls.foldl Recording.apply .empty
    let values := fun name => valuesOf name (calls.flatMap Recording.observations)
    (∀ name, name ∈ t.names ↔ values name ≠ []) ∧
      (∀ b, Convergence.evaluate t settings = .ok (.converged b) ↔
        (∀ name, values name ≠ [] → Converged settings (values name)) ∧
        ∀ name, b.get? name = if values name = [] then none
          else some ⟨(Moments.ofList (values name)).mean,
            (Moments.ofList (values name)).stddev⟩) ∧
      (∀ short, Convergence.evaluate t settings = .ok (.shortfall short) ↔
        FirstShortfall settings (calls.flatMap Recording.observations) short) ∧
      ((∃ b, Convergence.evaluate t settings = .ok (.converged b)) ∨
        ∃ short, Convergence.evaluate t settings = .ok (.shortfall short)) ∧
      ∀ short, Convergence.evaluate t settings = .ok (.shortfall short) →
        1 ≤ short.total ∧ (short.total ≤ countLimit →
          short.retained < short.total ∧ short.percent.isFinite ∧
            0 ≤ short.percent ∧ short.percent < .ofNat 100) := by
  intro t values
  have ht : t = ofObservations (calls.flatMap Recording.observations) :=
    Recording.foldl_apply calls
  refine ⟨fun name => ?_, fun b => ?_, fun short => ?_, ?_, fun short h => ?_⟩
  · rw [ht, mem_names_ofObservations_iff]
  · rw [ht, evaluate_eq_converged_iff hs, eq_baseline_ofObservations_iff]
    exact Iff.rfl
  · rw [ht, evaluate_eq_shortfall_iff hs]
  · rw [ht]
    rcases evaluate_cases hs (calls.flatMap Recording.observations) with
      ⟨-, heval⟩ | ⟨short, -, heval⟩
    · exact .inl ⟨_, heval⟩
    · exact .inr ⟨short, heval⟩
  · rw [ht, evaluate_eq_shortfall_iff hs] at h
    refine ⟨h.total_pos, fun hlimit => ⟨h.retained_lt_total hs hlimit, ?_⟩⟩
    exact h.percent_lt hs hlimit

/-- A metric with one value of four outside the band falls short; what came after a line that does
not read was never recorded. -/
theorem evaluate_scattered_metric :
    let settings : ConvergenceSettings := ⟨.ofNat 1, .ofNat 1⟩
    let calls : List Recording :=
      [.read (.ofText "b:7\na:0\na:0\nno value\nb:1\n"), .observe "a" 0, .observe "a" (.ofNat 100)]
    settings.check = .ok () ∧ ∃ short,
      Convergence.evaluate (calls.foldl Recording.apply .empty) settings = .ok (.shortfall short) ∧
      short = ⟨"a", 3, 4⟩ ∧ short.retained < short.total ∧ short.percent < .ofNat 100 := by
  intro settings calls
  have hs : settings.check = .ok () :=
    ConvergenceSettings.check_eq_ok.2 ⟨by decide +kernel, by decide +kernel⟩
  have hrun : (Convergence.evaluate (calls.foldl Recording.apply .empty) settings).toOption.map
      (fun v => v.casesOn (motive := fun _ => Option Shortfall) (fun _ => none) some) =
        some (some ⟨"a", 3, 4⟩) := by
    decide +kernel
  obtain ⟨-, -, -, hanswer, hcounts⟩ := evaluate_after_calls hs calls
  rcases hanswer with ⟨b, heval⟩ | ⟨short, heval⟩
  · rw [heval] at hrun
    cases hrun
  · have hshort : short = ⟨"a", 3, 4⟩ := by
      rw [heval] at hrun
      exact Option.some.inj (Option.some.inj hrun)
    have hlimit : short.total ≤ countLimit := by
      rw [hshort]
      decide +kernel
    obtain ⟨hlt, -, -, hpercent⟩ := (hcounts short heval).2 hlimit
    exact ⟨hs, short, heval, hshort, hlt, hpercent⟩

end Ratchet
