import Ratchet.CommandLine
import Ratchet.Proofs.Stages

/-!
# What a command line gives

A check of settings passes exactly when every threshold is in its range, and a command line gives
settings only when the check of what it put together passes. The command is the one of the tool, on
all the operands that there are.
-/

namespace Ratchet

theorem RegressionSettings.check_eq_ok {s : RegressionSettings} :
    s.check = .ok () ↔ toleranceInRange s.tolerance := by
  unfold check
  split <;> simp_all

theorem ConvergenceSettings.check_eq_ok {s : ConvergenceSettings} :
    s.check = .ok () ↔ sigmaInRange s.sigma ∧ acceptanceInRange s.acceptance := by
  unfold check
  split
  · simp_all
  · split <;> simp_all

theorem ConvergenceSettings.sigmaInRange_iff {x : Binary64} :
    sigmaInRange x ↔ x.isFinite ∧ 0 < x := Bool.and_eq_true_iff

theorem ConvergenceSettings.acceptanceInRange_iff {x : Binary64} :
    acceptanceInRange x ↔ 0 < x ∧ x ≤ .ofNat 1 := Bool.and_eq_true_iff

theorem RegressionSettings.toleranceInRange_iff {x : Binary64} :
    toleranceInRange x ↔ x.isFinite ∧ 0 ≤ x := Bool.and_eq_true_iff

theorem Settings.check_eq_ok {s : Settings} :
    s.check = .ok () ↔ s.convergence.check = .ok () ∧ s.regression.check = .ok () := by
  rw [check, bind_eq_ok]
  constructor
  · rintro ⟨_, hconvergence, hregression⟩
    exact ⟨hconvergence, hregression⟩
  · rintro ⟨hconvergence, hregression⟩
    exact ⟨(), hconvergence, hregression⟩

namespace CommandLine

theorem Given.check_of_settings {g : Given} {t : FileTree} {s : Settings}
    (h : g.settings t = .ok s) : s.check = .ok () := by
  obtain ⟨_, -, h⟩ := bind_eq_ok.1 h
  obtain ⟨_, hcheck, h⟩ := bind_eq_ok.1 h
  cases h
  exact mapError_eq_ok.1 hcheck

variable {args : List String} {command : Command} {given : Given}

theorem ofOperands?_of_read {tool : Tool} (h : read tool args = .ok (command, given)) :
    Command.ofOperands? tool given.operands = some command := by
  obtain ⟨_, -, h⟩ := bind_eq_ok.1 h
  obtain ⟨_, -, h⟩ := bind_eq_ok.1 h
  split at h
  · next hcommand => cases h; exact hcommand
  · cases h

theorem exists_accept_of_read (h : read .accept args = .ok (command, given)) :
    ∃ reference checked, command = .accept reference checked := by
  have hcommand := ofOperands?_of_read h
  unfold Command.ofOperands? at hcommand
  split at hcommand
  · next hs _ => cases hs
  · cases hcommand; exact ⟨_, _, rfl⟩
  · cases hcommand

theorem exists_converge_of_read (h : read .converge args = .ok (command, given)) :
    ∃ output, command = .converge output := by
  have hcommand := ofOperands?_of_read h
  unfold Command.ofOperands? at hcommand
  split at hcommand
  · cases hcommand; exact ⟨_, rfl⟩
  · next hs _ => cases hs
  · cases hcommand

end CommandLine

end Ratchet
