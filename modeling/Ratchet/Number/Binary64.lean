import Ratchet.Number.Rounding

/-!
# Double precision numbers

A `Binary64` is not a number, an infinity, or a sign with a magnitude. A magnitude counts least
units (`2 ^ -1074`), so that every finite value is a whole number and equal values have equal
representations; the two zeros differ in their sign alone. There is a single value that is not a
number.

Every operation computes its exact result as a quotient of whole numbers and rounds it once, to
the nearest representable value with ties to even. Comparisons follow IEEE 754: nothing compares
with a value that is not a number, and the zeros are equal.
-/

namespace Ratchet

/-- A representable magnitude, in least units. -/
structure Magnitude where
  units : Nat
  fits : Fits Format.double.digits units
  bounded : units < Nat.pow 2 Format.double.limit
  deriving DecidableEq

namespace Magnitude

/-- How many least units make one. -/
def one : Nat := Nat.pow 2 Format.double.unit

def zero : Magnitude := ⟨0, .zero _, zero_lt_two_pow _⟩

/-- The representable magnitude nearest `n / d` least units, unless it is out of range. -/
def nearest? (n d : Nat) : Option Magnitude :=
  let m := roundTo Format.double.digits n d
  if h : m < Nat.pow 2 Format.double.limit then
    some ⟨m, fits_roundTo (by decide) n d, h⟩
  else none

end Magnitude

/-- Double precision numbers; `neg` is the sign. -/
inductive Binary64 where
  | nan
  | inf (neg : Bool)
  | finite (neg : Bool) (mag : Magnitude)
  deriving DecidableEq

namespace Binary64

def zero (neg : Bool) : Binary64 := finite neg .zero

instance : Zero Binary64 := ⟨zero false⟩

instance : Inhabited Binary64 := ⟨0⟩

/-- The value nearest `n / d` least units under a sign; out of range it is an infinity. -/
def nearest (neg : Bool) (n d : Nat) : Binary64 :=
  match Magnitude.nearest? n d with
  | some m => finite neg m
  | none => inf neg

def ofNat (n : Nat) : Binary64 := nearest false (n * Magnitude.one) 1

instance : NatCast Binary64 := ⟨ofNat⟩

def ofInt (z : Int) : Binary64 := nearest (decide (z < 0)) (z.natAbs * Magnitude.one) 1

def isNan : Binary64 → Bool
  | nan => true
  | _ => false

def isFinite : Binary64 → Bool
  | finite _ _ => true
  | _ => false

def isNegative : Binary64 → Bool
  | nan => false
  | inf neg => neg
  | finite neg _ => neg

/-- A whole number under a sign. -/
def signed (neg : Bool) (n : Nat) : Int := if neg then -(n : Int) else n

/-- The place on the extended number line, the infinities standing just past the finite values. -/
def place? : Binary64 → Option Int
  | nan => none
  | inf neg => some (signed neg (Nat.pow 2 Format.double.limit))
  | finite neg m => some (signed neg m.units)

/-- Strictly below; false when either side is not a number. -/
def lt (x y : Binary64) : Bool :=
  match x.place?, y.place? with
  | some a, some b => decide (a < b)
  | _, _ => false

/-- At most; false when either side is not a number. -/
def le (x y : Binary64) : Bool :=
  match x.place?, y.place? with
  | some a, some b => decide (a ≤ b)
  | _, _ => false

def isZero (x : Binary64) : Bool := x.place? == some 0

instance : LT Binary64 := ⟨fun x y => x.lt y = true⟩

instance : LE Binary64 := ⟨fun x y => x.le y = true⟩

instance (x y : Binary64) : Decidable (x < y) := inferInstanceAs (Decidable (x.lt y = true))

instance (x y : Binary64) : Decidable (x ≤ y) := inferInstanceAs (Decidable (x.le y = true))

/-! ## Arithmetic -/

def neg : Binary64 → Binary64
  | nan => nan
  | inf s => inf (!s)
  | finite s m => finite (!s) m

instance : Neg Binary64 := ⟨neg⟩

def abs : Binary64 → Binary64
  | nan => nan
  | inf _ => inf false
  | finite _ m => finite false m

/-- A sum that is exactly zero is negative only if both terms are. -/
def add : Binary64 → Binary64 → Binary64
  | nan, _ => nan
  | _, nan => nan
  | inf s, inf t => if s = t then inf s else nan
  | inf s, finite _ _ => inf s
  | finite _ _, inf t => inf t
  | finite s a, finite t b =>
    let sum := signed s a.units + signed t b.units
    if sum = 0 then zero (s && t) else nearest (decide (sum < 0)) sum.natAbs 1

instance : Add Binary64 := ⟨add⟩

def sub (x y : Binary64) : Binary64 := x + -y

instance : Sub Binary64 := ⟨sub⟩

def mul : Binary64 → Binary64 → Binary64
  | nan, _ => nan
  | _, nan => nan
  | inf s, inf t => inf (s != t)
  | inf s, finite t b => if b.units = 0 then nan else inf (s != t)
  | finite s a, inf t => if a.units = 0 then nan else inf (s != t)
  | finite s a, finite t b => nearest (s != t) (a.units * b.units) Magnitude.one

instance : Mul Binary64 := ⟨mul⟩

/-- Dividing by a zero gives an infinity, except from a zero. -/
def div : Binary64 → Binary64 → Binary64
  | nan, _ => nan
  | _, nan => nan
  | inf _, inf _ => nan
  | inf s, finite t _ => inf (s != t)
  | finite s _, inf t => zero (s != t)
  | finite s a, finite t b =>
    if b.units = 0 then
      if a.units = 0 then nan else inf (s != t)
    else nearest (s != t) (a.units * Magnitude.one) b.units

instance : Div Binary64 := ⟨div⟩

/-- The square root of `n` lies at the whole number `r`, or strictly between `r` and `r + 1`, where
no rounding boundary of a double precision root lies: the middle then rounds as the root does. -/
def sqrt : Binary64 → Binary64
  | nan => nan
  | inf s => if s then nan else inf false
  | finite s m =>
    if m.units = 0 then finite s m
    else if s then nan
    else
      let n := m.units * Magnitude.one
      let r := n.sqrt
      if r * r = n then nearest false r 1 else nearest false (2 * r + 1) 2

end Binary64

end Ratchet
