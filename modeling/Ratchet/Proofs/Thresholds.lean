import Ratchet.Proofs.CommandLine
import Ratchet.Proofs.Comparison

/-!
# Thresholds

Settings are a value for each `Threshold`, and a check of settings looks for the first that is out
of its range (`Settings.check_eq`). Ranges are said by comparisons that hold, so what is not a
number is in none of them, and neither are the infinities (`Threshold.InRange.isFinite`).

The settings of a run are put together first and checked once (`Given.settings_of_load`). So they
are there exactly if the file loads and every value is in range after the options have taken the
place of what is filed (`Given.exists_settings_iff`), and otherwise the fault of a file that loads
names a value that is not (`Given.exists_flaw_of_settings`).
-/

namespace Ratchet

open CommandLine (Given)

/-- What the gates can be set to. -/
inductive Threshold where
  | sigma
  | acceptance
  | tolerance
  deriving DecidableEq

namespace Threshold

variable {p : Threshold} {x : Binary64}

def of : Threshold → Settings → Binary64
  | sigma, s => s.convergence.sigma
  | acceptance, s => s.convergence.acceptance
  | tolerance, s => s.regression.tolerance

/-- The value that the options of a command line give it. -/
def given? : Threshold → Given → Option Binary64
  | sigma, g => g.sigma
  | acceptance, g => g.acceptance
  | tolerance, g => g.tolerance

/-- The value for a run: the one of the option, or else the one that is filed. -/
def merged (p : Threshold) (g : Given) (filed : Settings) : Binary64 :=
  (p.given? g).getD (p.of filed)

theorem merged_of_none {g : Given} (h : p.given? g = none) (filed : Settings) :
    p.merged g filed = p.of filed := by
  rw [merged, h, Option.getD_none]

theorem merged_of_some {g : Given} (h : p.given? g = some x) (filed : Settings) :
    p.merged g filed = x := by
  rw [merged, h, Option.getD_some]

/-- The values that a gate runs with. -/
def InRange : Threshold → Binary64 → Prop
  | sigma, x => x.isFinite ∧ 0 < x
  | acceptance, x => 0 < x ∧ x ≤ .ofNat 1
  | tolerance, x => x.isFinite ∧ 0 ≤ x

instance (p : Threshold) (x : Binary64) : Decidable (p.InRange x) :=
  match p with
  | sigma => inferInstanceAs (Decidable (_ ∧ _))
  | acceptance => inferInstanceAs (Decidable (_ ∧ _))
  | tolerance => inferInstanceAs (Decidable (_ ∧ _))

theorem InRange.isFinite (h : p.InRange x) : x.isFinite := by
  cases p with
  | sigma => exact h.1
  | acceptance =>
    cases x with
    | nan => exact absurd h.1 (Binary64.not_lt_nan 0)
    | inf neg =>
      cases neg with
      | false => exact absurd h.2 (by decide +kernel)
      | true => exact absurd h.1 (by decide +kernel)
    | finite => rfl
  | tolerance => exact h.1

/-- What is wrong with settings that have a value out of range. -/
def flaw : Threshold → Binary64 → SettingsFlaw
  | sigma, x => .sigma x
  | acceptance, x => .acceptance x
  | tolerance, x => .tolerance x

/-- The first threshold with a value out of its range. -/
def firstOutside? (value : Threshold → Binary64) : Option Threshold :=
  [sigma, acceptance, tolerance].find? fun p => ¬ p.InRange (value p)

theorem firstOutside?_eq_none {value : Threshold → Binary64} :
    firstOutside? value = none ↔ ∀ p : Threshold, p.InRange (value p) := by
  rw [firstOutside?, List.find?_eq_none]
  constructor
  · intro h p
    have hp : p ∈ [sigma, acceptance, tolerance] := by cases p <;> decide
    simpa using h p hp
  · intro h p _
    simpa using h p

theorem not_inRange_of_firstOutside? {value : Threshold → Binary64}
    (h : firstOutside? value = some p) : ¬ p.InRange (value p) := by
  simpa using List.find?_some h

end Threshold

namespace Settings

variable {s s' : Settings}

/-- Every threshold has a value in its range. -/
def InRange (s : Settings) : Prop := ∀ p : Threshold, p.InRange (p.of s)

theorem ext_of (h : ∀ p : Threshold, p.of s = p.of s') : s = s' := by
  obtain ⟨⟨sigma, acceptance⟩, ⟨tolerance⟩⟩ := s
  obtain ⟨⟨sigma', acceptance'⟩, ⟨tolerance'⟩⟩ := s'
  obtain rfl : sigma = sigma' := h .sigma
  obtain rfl : acceptance = acceptance' := h .acceptance
  obtain rfl : tolerance = tolerance' := h .tolerance
  rfl

theorem check_eq (s : Settings) :
    s.check =
      match Threshold.firstOutside? (Threshold.of · s) with
      | none => .ok ()
      | some p => .error (p.flaw (p.of s)) := by
  have hsigma : Threshold.sigma.InRange s.convergence.sigma ↔
      ConvergenceSettings.sigmaInRange s.convergence.sigma :=
    ConvergenceSettings.sigmaInRange_iff.symm
  have hacceptance : Threshold.acceptance.InRange s.convergence.acceptance ↔
      ConvergenceSettings.acceptanceInRange s.convergence.acceptance :=
    ConvergenceSettings.acceptanceInRange_iff.symm
  have htolerance : Threshold.tolerance.InRange s.regression.tolerance ↔
      RegressionSettings.toleranceInRange s.regression.tolerance :=
    RegressionSettings.toleranceInRange_iff.symm
  unfold check ConvergenceSettings.check RegressionSettings.check Threshold.firstOutside?
  simp only [List.find?, Threshold.of, hsigma, hacceptance, htolerance]
  cases ConvergenceSettings.sigmaInRange s.convergence.sigma with
  | false => rfl
  | true =>
    cases ConvergenceSettings.acceptanceInRange s.convergence.acceptance with
    | false => rfl
    | true => cases RegressionSettings.toleranceInRange s.regression.tolerance <;> rfl

end Settings

namespace CommandLine.Given

variable {g : Given} {t : FileTree} {s filed : Settings}

theorem of_override (p : Threshold) (g : Given) (filed : Settings) :
    p.of (g.override filed) = p.merged g filed := by
  cases p <;> rfl

/-- Ranges are checked where all values have been put together. -/
theorem settings_of_load (hload : Settings.loadOrDefault t g.config = .ok filed) :
    g.settings t =
      match Threshold.firstOutside? (Threshold.merged · g filed) with
      | none => .ok (g.override filed)
      | some p => .error (p.flaw (p.merged g filed)).fault := by
  rw [settings, hload, ok_bind]
  show (do (g.override filed).check.mapError SettingsFlaw.fault; pure (g.override filed)) = _
  rw [Settings.check_eq]
  simp only [of_override]
  cases Threshold.firstOutside? (Threshold.merged · g filed) with
  | none => rfl
  | some p => rfl

theorem settings_eq_ok :
    g.settings t = .ok s ↔ ∃ filed, Settings.loadOrDefault t g.config = .ok filed ∧
      (∀ p : Threshold, p.InRange (p.merged g filed)) ∧ g.override filed = s := by
  constructor
  · intro h
    obtain ⟨filed, hload, -⟩ := bind_eq_ok.1 h
    rw [settings_of_load hload] at h
    split at h
    · next hrange => exact ⟨filed, hload, Threshold.firstOutside?_eq_none.1 hrange, Except.ok.inj h⟩
    · cases h
  · rintro ⟨filed, hload, hrange, rfl⟩
    rw [settings_of_load hload, Threshold.firstOutside?_eq_none.2 hrange]

theorem exists_settings_iff :
    (∃ s, g.settings t = .ok s) ↔ ∃ filed, Settings.loadOrDefault t g.config = .ok filed ∧
      ∀ p : Threshold, p.InRange (p.merged g filed) := by
  simp only [settings_eq_ok]
  constructor
  · rintro ⟨_, filed, hload, hrange, -⟩
    exact ⟨filed, hload, hrange⟩
  · rintro ⟨filed, hload, hrange⟩
    exact ⟨_, filed, hload, hrange, rfl⟩

theorem of_settings (h : g.settings t = .ok s)
    (hload : Settings.loadOrDefault t g.config = .ok filed) (p : Threshold) :
    p.of s = p.merged g filed := by
  obtain ⟨filed', hload', -, rfl⟩ := settings_eq_ok.1 h
  cases hload.symm.trans hload'
  exact of_override p g filed

theorem inRange_of_settings (h : g.settings t = .ok s) : s.InRange := by
  obtain ⟨filed, -, hrange, rfl⟩ := settings_eq_ok.1 h
  exact fun p => of_override p g filed ▸ hrange p

theorem exists_flaw_of_settings (hload : Settings.loadOrDefault t g.config = .ok filed)
    {fault : Fault} (h : g.settings t = .error fault) :
    ∃ p : Threshold, let x := p.merged g filed
      ¬ p.InRange x ∧ fault = (p.flaw x).fault := by
  rw [settings_of_load hload] at h
  split at h
  · cases h
  · next p hfirst =>
    exact ⟨p, Threshold.not_inRange_of_firstOutside? hfirst, (Except.error.inj h).symm⟩

end CommandLine.Given

end Ratchet
