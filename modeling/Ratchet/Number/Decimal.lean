import Ratchet.Number.Binary64

/-!
# Decimal numbers and their rounding

A `Decimal` is a whole number times a power of ten, the exact value of a written number before it
is rounded to a binary format. `Decimal.reach` tells the decimals that lie far outside every
format from those worth an exact quotient, so that a written exponent of any size costs nothing.
-/

namespace Ratchet

/-- The decimal digits of a number, the most significant first. -/
def digits (n : Nat) : List Char := Nat.toDigits 10 n

def digitCount (n : Nat) : Nat := (digits n).length

def ofDigits (cs : List Char) : Nat := cs.foldl (fun n c => 10 * n + (c.toNat - '0'.toNat)) 0

/-- The number `coeff * 10 ^ exponent`. -/
structure Decimal where
  coeff : Nat
  exponent : Int
  deriving DecidableEq, Repr

/-- Where a decimal lies against the range of the binary formats. -/
inductive Decimal.Reach where
  /-- Below half the least unit of every format, zero included. -/
  | tiny
  /-- Beyond the largest value of every format. -/
  | huge
  /-- The exact quotient. -/
  | quotient (n d : Nat)

namespace Decimal

/-- Powers of ten beyond this one are out of reach of every format, in both directions. -/
def horizon : Int := 400

/-- A decimal that is not zero lies between the powers of ten `size - 1` and `size`. -/
def size (x : Decimal) : Int := digitCount x.coeff + x.exponent

def reach (x : Decimal) : Reach :=
  if x.coeff = 0 ∨ x.size < -horizon then .tiny
  else if horizon < x.size then .huge
  else .quotient (x.coeff * Nat.pow 10 x.exponent.toNat) (Nat.pow 10 (-x.exponent).toNat)

end Decimal

namespace Binary64

def ofDecimal (neg : Bool) (x : Decimal) : Binary64 :=
  match x.reach with
  | .tiny => zero neg
  | .huge => inf neg
  | .quotient n d => nearest neg (n * Magnitude.one) d

/-- The single precision value nearest a decimal, which double precision holds exactly. -/
def ofDecimalSingle (neg : Bool) (x : Decimal) : Binary64 :=
  match x.reach with
  | .tiny => zero neg
  | .huge => inf neg
  | .quotient n d =>
    match Format.single.round n d with
    | some m => nearest neg (m * Nat.pow 2 (Format.double.unit - Format.single.unit)) 1
    | none => inf neg

end Binary64

end Ratchet
