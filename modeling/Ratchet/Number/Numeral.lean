import Ratchet.Number.Decimal

/-!
# Written numbers

The grammar of a number in measurement lines, baseline fields and option values: an optional sign,
then one of the words `inf`, `infinity` and `nan` in any case, or decimal digits with an optional
point (digits on at least one side of it) and an optional exponent. Nothing may follow, and only
ASCII counts.
-/

namespace Ratchet

/-- What a written number stands for, before rounding. -/
inductive Numeral where
  | nan
  | infinite (neg : Bool)
  | decimal (neg : Bool) (value : Decimal)
  deriving DecidableEq, Repr

namespace Numeral

/-- Takes an optional sign off a text; `true` is a minus. -/
def splitSign : List Char → Bool × List Char
  | '-' :: rest => (true, rest)
  | '+' :: rest => (false, rest)
  | s => (false, s)

/-- An exponent part, which may be absent but not incomplete. -/
def readExponent : List Char → Option Int
  | [] => some 0
  | c :: rest =>
    if c = 'e' ∨ c = 'E' then
      let (neg, ds) := splitSign rest
      if ds ≠ [] ∧ ds.all Char.isDigit then
        some (if neg then -(ofDigits ds : Int) else ofDigits ds)
      else none
    else none

/-- Takes the digits after a point, if there is one, off a text. -/
def splitFraction : List Char → List Char × List Char
  | '.' :: rest => (rest.takeWhile Char.isDigit, rest.dropWhile Char.isDigit)
  | s => ([], s)

def readDecimal (s : List Char) : Option Decimal :=
  let whole := s.takeWhile Char.isDigit
  let (fraction, rest) := splitFraction (s.dropWhile Char.isDigit)
  if whole = [] ∧ fraction = [] then none
  else (readExponent rest).map fun e => ⟨ofDigits (whole ++ fraction), e - fraction.length⟩

def read? (s : List Char) : Option Numeral :=
  let (neg, body) := splitSign s
  let word := body.map Char.toLower
  if word = "nan".toList then some .nan
  else if word = "inf".toList ∨ word = "infinity".toList then some (.infinite neg)
  else (readDecimal body).map (.decimal neg)

def toBinary64 : Numeral → Binary64
  | nan => .nan
  | infinite neg => .inf neg
  | decimal neg x => .ofDecimal neg x

/-- The single precision value, held in double precision. -/
def toSingle : Numeral → Binary64
  | nan => .nan
  | infinite neg => .inf neg
  | decimal neg x => .ofDecimalSingle neg x

end Numeral

def Binary64.read? (s : List Char) : Option Binary64 := (Numeral.read? s).map Numeral.toBinary64

end Ratchet
