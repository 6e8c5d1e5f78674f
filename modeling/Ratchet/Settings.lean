import Ratchet.Number.Decimal
import Ratchet.Number.Layout
import Ratchet.Fault

/-!
# Settings

The thresholds of both gates and their ranges: `sigma` is finite and positive, `acceptance` lies
above zero and up to one, `tolerance` is finite and not negative. A comparison with a value that is
not a number fails, so such a value is out of every range.
-/

namespace Ratchet

inductive SettingsFlaw where
  | sigma (found : Binary64)
  | acceptance (found : Binary64)
  | tolerance (found : Binary64)
  /-- The settings file does not read; its wording stops short of the place and the cause. -/
  | unreadable
  deriving DecidableEq

namespace SettingsFlaw

def reason : SettingsFlaw → String
  | sigma x => "convergence sigma must be a positive number, got " ++ x.plain
  | acceptance x => "convergence acceptance must be in (0, 1], got " ++ x.plain
  | tolerance x => "regression tolerance must be a non-negative number, got " ++ x.plain
  | unreadable => "failed to parse TOML"

def fault (f : SettingsFlaw) : Fault := .settings f.reason

end SettingsFlaw

structure ConvergenceSettings where
  /-- Half the width of the retention band, in standard deviations. -/
  sigma : Binary64
  /-- The least fraction of samples inside the band. -/
  acceptance : Binary64
  deriving DecidableEq

structure RegressionSettings where
  /-- How many reference standard deviations a mean may rise. -/
  tolerance : Binary64
  deriving DecidableEq

structure Settings where
  convergence : ConvergenceSettings
  regression : RegressionSettings
  deriving DecidableEq

namespace ConvergenceSettings

def default : ConvergenceSettings := ⟨.ofNat 3, .ofDecimal false ⟨95, -2⟩⟩

instance : Inhabited ConvergenceSettings := ⟨default⟩

def sigmaInRange (x : Binary64) : Bool := x.isFinite && (0 : Binary64).lt x

def acceptanceInRange (x : Binary64) : Bool := (0 : Binary64).lt x && x.le (.ofNat 1)

/-- The first threshold out of range, if any is. -/
def check (s : ConvergenceSettings) : Except SettingsFlaw Unit :=
  if !sigmaInRange s.sigma then .error (.sigma s.sigma)
  else if !acceptanceInRange s.acceptance then .error (.acceptance s.acceptance)
  else .ok ()

end ConvergenceSettings

namespace RegressionSettings

def default : RegressionSettings := ⟨.ofNat 3⟩

instance : Inhabited RegressionSettings := ⟨default⟩

/-- Flags smaller slowdowns. -/
def strict : RegressionSettings := ⟨.ofNat 2⟩

/-- For noisy machines. -/
def permissive : RegressionSettings := ⟨.ofNat 5⟩

def toleranceInRange (x : Binary64) : Bool := x.isFinite && (0 : Binary64).le x

def check (s : RegressionSettings) : Except SettingsFlaw Unit :=
  if toleranceInRange s.tolerance then .ok () else .error (.tolerance s.tolerance)

end RegressionSettings

namespace Settings

def default : Settings := ⟨.default, .default⟩

instance : Inhabited Settings := ⟨default⟩

/-- The first threshold out of range, those of convergence coming first. -/
def check (s : Settings) : Except SettingsFlaw Unit := do
  s.convergence.check
  s.regression.check

end Settings

end Ratchet
