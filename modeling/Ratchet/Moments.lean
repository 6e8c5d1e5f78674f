import Ratchet.Number.Binary64

/-!
# Running statistics

`Moments` folds values one at a time into their count, their mean and the sum of their squared
deviations from the mean. The second factor of each added square uses the mean that already
includes the value, which makes the sum exact: it follows a mean that keeps moving.

The arithmetic is a parameter. The gates run it on `Binary64`; over the rationals the same
definition gives the exact statistics.
-/

namespace Ratchet

structure Moments (α : Type) where
  /-- How many values were folded in. -/
  count : Nat
  mean : α
  /-- Sum of squared deviations from the mean. -/
  spread : α
  deriving DecidableEq

namespace Moments

variable {α : Type}

def empty [Zero α] : Moments α := ⟨0, 0, 0⟩

instance [Zero α] : EmptyCollection (Moments α) := ⟨empty⟩

variable [Add α] [Sub α] [Mul α] [Div α] [NatCast α]

def push (m : Moments α) (x : α) : Moments α :=
  let count := m.count + 1
  let delta := x - m.mean
  let mean := m.mean + delta / (count : α)
  ⟨count, mean, m.spread + delta * (x - mean)⟩

/-- The moments of a list of values, folded in order. -/
def ofList [Zero α] (xs : List α) : Moments α := xs.foldl push empty

/-- The population variance; zero before the first value. -/
def variance [Zero α] (m : Moments α) : α :=
  if m.count = 0 then 0 else m.spread / (m.count : α)

def stddev (m : Moments Binary64) : Binary64 := m.variance.sqrt

@[simp] theorem count_push (m : Moments α) (x : α) : (m.push x).count = m.count + 1 := rfl

theorem spread_push (m : Moments α) (x : α) :
    (m.push x).spread = m.spread + (x - m.mean) * (x - (m.push x).mean) := rfl

end Moments

end Ratchet
