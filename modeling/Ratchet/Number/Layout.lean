import Ratchet.Number.Shortest

/-!
# Number texts

A `Layout` says how the shortest digits of a number are set out: which powers of ten are written
positionally and which with an exponent, whether a whole number keeps a point, how an exponent is
signed. Three layouts are in use:

* `Layout.plain` for reports and messages: always positional, no trailing point;
* `Layout.tagged` for baseline files: positional from `1e-4` up to `1e16`, always with a point or an
  exponent, so that a number is never taken for a count;
* `Layout.json` for machine-readable reports: as `tagged`, from `1e-5`, with signed exponents.

`fixed` writes the exact value to a number of decimal places.
-/

namespace Ratchet

structure Layout where
  /-- Between two equally near shortest decimals. -/
  tie : Tie
  /-- Powers of ten of the leading digit that are written positionally: at least the first and
  below the second; `none` for all. -/
  positional : Option (Int × Int)
  /-- Whole numbers written positionally end in a point and a zero. -/
  keepsPoint : Bool
  /-- A positive exponent carries a plus sign. -/
  signsExponent : Bool

namespace Layout

/-- Numbers in prose. -/
def plain : Layout := ⟨.up, none, false, false⟩

/-- Numbers in baseline files. -/
def tagged : Layout := ⟨.up, some (-4, 16), true, false⟩

/-- Numbers in JSON. -/
def json : Layout := ⟨.even, some (-5, 16), true, true⟩

def isPositional (l : Layout) (lead : Int) : Bool :=
  match l.positional with
  | none => true
  | some (low, high) => decide (low ≤ lead ∧ lead < high)

/-- Digits without an exponent: `ds` times `10 ^ k`. -/
def positionalText (l : Layout) (ds : List Char) (k : Int) : List Char :=
  if 0 ≤ k then
    ds ++ List.replicate k.toNat '0' ++ (if l.keepsPoint then ['.', '0'] else [])
  else if (-k).toNat < ds.length then
    ds.take (ds.length - (-k).toNat) ++ '.' :: ds.drop (ds.length - (-k).toNat)
  else
    '0' :: '.' :: List.replicate ((-k).toNat - ds.length) '0' ++ ds

/-- One digit before the point, the rest after it, and the exponent. -/
def exponentText (l : Layout) (ds : List Char) (lead : Int) : List Char :=
  let sign := if lead < 0 then ['-'] else if l.signsExponent then ['+'] else []
  let fraction := if ds.length ≤ 1 then [] else '.' :: ds.drop 1
  ds.take 1 ++ fraction ++ 'e' :: sign ++ digits lead.natAbs

def decimal (l : Layout) (x : Decimal) : List Char :=
  let ds := digits x.coeff
  let lead := x.exponent + ds.length - 1
  if l.isPositional lead then l.positionalText ds x.exponent else l.exponentText ds lead

def signText (neg : Bool) : List Char := if neg then ['-'] else []

/-- The text of a number; the sign of a value that is not a number is not written. -/
def number (l : Layout) : Binary64 → List Char
  | .nan => "NaN".toList
  | .inf neg => signText neg ++ "inf".toList
  | .finite neg m => signText neg ++ l.decimal (m.shortest l.tie)

end Layout

namespace Binary64

/-- The number as reports and messages write it. -/
def plain (x : Binary64) : String := String.ofList (Layout.plain.number x)

/-- The number as baseline files write it. -/
def tagged (x : Binary64) : String := String.ofList (Layout.tagged.number x)

/-- The exact value to so many decimal places, a half going to the even neighbour. -/
def fixed (places : Nat) : Binary64 → String
  | nan => "NaN"
  | inf neg => String.ofList (Layout.signText neg) ++ "inf"
  | finite neg m =>
    let ds := digits (nearestEven (m.units * Nat.pow 10 places) Magnitude.one)
    let padded := List.replicate (places + 1 - ds.length) '0' ++ ds
    let whole := padded.take (padded.length - places)
    let fraction := padded.drop (padded.length - places)
    String.ofList (Layout.signText neg ++ whole ++ (if places = 0 then [] else '.' :: fraction))

end Binary64

end Ratchet
