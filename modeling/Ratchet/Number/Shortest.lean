import Ratchet.Number.Decimal

/-!
# The fewest digits that read back

`shortest tie m` is the decimal of fewest digits that rounds to the magnitude `m`, and of those the
nearest to it. The search goes through ever finer decimal grids. On each grid only the two
neighbours of the value can be candidates: the decimals that round to `m` form an interval around
it, so if any grid point lies inside, a neighbour does. On the first grid with a candidate the
nearer one is taken; where both are equally near, `tie` decides.
-/

namespace Ratchet

/-- Which of two equally near decimals is taken. -/
inductive Tie where
  /-- The larger. -/
  | up
  /-- The one whose last digit is even. -/
  | even
  deriving DecidableEq, Repr

namespace Magnitude

def readsBack (m : Magnitude) (x : Decimal) : Bool :=
  decide (Binary64.ofDecimal false x = .finite false m)

/-- The power of ten of the leading digit of `n / d`. -/
def leadingExponent (n d : Nat) : Int :=
  if d ≤ n then (digitCount (n / d) : Int) - 1 else -(digitCount ((d - 1) / n) : Int)

/-- The candidate among the two neighbours of `m` on the grid of multiples of `10 ^ k`. -/
def onGrid? (tie : Tie) (m : Magnitude) (k : Int) : Option Decimal :=
  let n := m.units * Nat.pow 10 (-k).toNat
  let d := one * Nat.pow 10 k.toNat
  let below : Decimal := ⟨n / d, k⟩
  let above : Decimal := ⟨n / d + 1, k⟩
  match m.readsBack below, m.readsBack above with
  | false, false => none
  | true, false => some below
  | false, true => some above
  | true, true =>
    if 2 * (n % d) < d then some below
    else if d < 2 * (n % d) then some above
    else
      match tie with
      | .up => some above
      | .even => some (if below.coeff % 2 = 0 then below else above)

def expansion (m : Magnitude) : Decimal :=
  ⟨m.units * Nat.pow 5 Format.double.unit, -(Format.double.unit : Int)⟩

/-- Seventeen digits always suffice, so the search starts one place above the leading digit and
tries that many grids below it. -/
def shortest (tie : Tie) (m : Magnitude) : Decimal :=
  let top := leadingExponent m.units one + 1
  ((List.range 19).findSome? fun (i : Nat) => m.onGrid? tie (top - (i : Int))).getD m.expansion

end Magnitude

end Ratchet
