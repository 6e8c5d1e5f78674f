import Ratchet.Number.Decimal
import Ratchet.Number.Layout

/-!
# Numbers in JSON documents

A written number keeps its digits until its value is asked for. The value takes as many leading
digits as fit a 64-bit significand, rounds that significand, and scales it by a power of ten in
steps that are rounded in turn; so it can differ from the nearest double in the last place. A number
that overflows has no value.
-/

namespace Ratchet.Json

structure NumberText where
  neg : Bool
  whole : List Char
  /-- Empty without a point. -/
  fraction : List Char
  /-- Sign and digits of the exponent, if there is one. -/
  exponent : Option (Bool × List Char)
  deriving DecidableEq, Repr

namespace NumberText

/-- The digits of the whole part; a zero at the front stands alone. -/
def readWhole (s : List Char) : Option (List Char × List Char) :=
  match s.takeWhile Char.isDigit, s.dropWhile Char.isDigit with
  | [], _ => none
  | ['0'], rest => some (['0'], rest)
  | '0' :: _ :: _, _ => none
  | ds, rest => some (ds, rest)

def readFraction : List Char → Option (List Char × List Char)
  | '.' :: rest =>
    match rest.takeWhile Char.isDigit with
    | [] => none
    | ds => some (ds, rest.dropWhile Char.isDigit)
  | s => some ([], s)

def splitSign : List Char → Bool × List Char
  | '-' :: rest => (true, rest)
  | '+' :: rest => (false, rest)
  | s => (false, s)

def readExponent : List Char → Option (Option (Bool × List Char) × List Char)
  | c :: rest =>
    if c = 'e' ∨ c = 'E' then
      let (neg, rest) := splitSign rest
      match rest.takeWhile Char.isDigit with
      | [] => none
      | ds => some (some (neg, ds), rest.dropWhile Char.isDigit)
    else some (none, c :: rest)
  | [] => some (none, [])

def read (s : List Char) : Option (NumberText × List Char) := do
  let (neg, s) := match s with
    | '-' :: rest => (true, rest)
    | s => (false, s)
  let (whole, s) ← readWhole s
  let (fraction, s) ← readFraction s
  let (exponent, s) ← readExponent s
  return (⟨neg, whole, fraction, exponent⟩, s)

/-- Extends a significand by digits as long as it stays within 64 bits, and returns how many digits
were left. -/
def accumulate (significand : Nat) : List Char → Nat × Nat
  | [] => (significand, 0)
  | c :: rest =>
    let next := 10 * significand + (c.toNat - '0'.toNat)
    if next < UInt64.size then accumulate next rest else (significand, rest.length + 1)

/-- The greatest power of ten that one step scales by. -/
def scaleLimit : Nat := 308

def powerOfTen (k : Nat) : Binary64 := .ofDecimal false ⟨1, k⟩

/-- Scales by a power of ten, downwards in steps of at most `scaleLimit`. -/
def scale (x : Binary64) (exponent : Int) : Option Binary64 :=
  if exponent.natAbs ≤ scaleLimit then
    if 0 ≤ exponent then
      let y := x * powerOfTen exponent.natAbs
      if y.isFinite then some y else none
    else some (x / powerOfTen exponent.natAbs)
  else if x.isZero then some x
  else if 0 ≤ exponent then none
  else scale (x / powerOfTen scaleLimit) (exponent + scaleLimit)
termination_by exponent.natAbs
decreasing_by simp only [scaleLimit] at *; omega

/-- The largest exponent that is taken at its value. -/
def exponentLimit : Nat := 0x7fffffff

/-- The magnitude of a significand under an exponent that the digits imply and a written one. -/
def magnitude (significand : Nat) (implied : Int) : Option (Bool × List Char) → Option Binary64
  | none => scale (.ofNat significand) implied
  | some (neg, ds) =>
    let e := ofDigits ds
    if exponentLimit < e then
      if significand ≠ 0 ∧ !neg then none else some 0
    else scale (.ofNat significand) (if neg then implied - e else implied + e)

/-- The value of a written number, unless it overflows. -/
def value? (t : NumberText) : Option Binary64 :=
  let (whole, left) := accumulate 0 t.whole
  let (significand, dropped) := accumulate whole t.fraction
  let implied : Int := (left : Int) - ((t.fraction.length - dropped : Nat) : Int)
  (magnitude significand implied t.exponent).map fun x => if t.neg then -x else x

end NumberText

end Ratchet.Json
