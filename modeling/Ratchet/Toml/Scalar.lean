import Ratchet.Toml.Table

/-!
# TOML scalars

Numbers, booleans, dates and times are runs of characters without a delimiter; each is recognised
as a whole. Digits may be grouped by single underscores. An integer has 64 bits and a sign; a float
that overflows upwards is refused.

Texts stand in quotes: double ones with escapes, single ones without, three of either for a text of
several lines.
-/

namespace Ratchet.Toml

/-! ## Numbers -/

/-- The digits of a run whose underscores each stand between two of them. -/
def ungroup (isDigit : Char → Bool) : List Char → Option (List Char)
  | [] => none
  | [c] => if isDigit c then some [c] else none
  | c :: '_' :: rest => if isDigit c then (ungroup isDigit rest).map (c :: ·) else none
  | c :: rest => if isDigit c then (ungroup isDigit rest).map (c :: ·) else none

/-- A decimal run without a leading zero. -/
def wholeDigits (s : List Char) : Option (List Char) :=
  match ungroup Char.isDigit s with
  | some ('0' :: _ :: _) => none
  | ds => ds

def splitSign : List Char → Bool × List Char
  | '-' :: rest => (true, rest)
  | '+' :: rest => (false, rest)
  | s => (false, s)

def hexDigit (c : Char) : Bool := c.isDigit || ('a' ≤ c && c ≤ 'f') || ('A' ≤ c && c ≤ 'F')

def digitValue (c : Char) : Nat :=
  if c.isDigit then c.toNat - '0'.toNat else c.toLower.toNat - 'a'.toNat + 10

def ofBase (base : Nat) (ds : List Char) : Nat := ds.foldl (fun n c => base * n + digitValue c) 0

def checkRange (n : Int) : Option Int :=
  if Int64.minValue.toInt ≤ n ∧ n ≤ Int64.maxValue.toInt then some n else none

def readInteger : List Char → Option Int
  | '0' :: 'x' :: rest => do checkRange (ofBase 16 (← ungroup hexDigit rest))
  | '0' :: 'o' :: rest => do
    checkRange (ofBase 8 (← ungroup (fun c => '0' ≤ c && c ≤ '7') rest))
  | '0' :: 'b' :: rest => do
    checkRange (ofBase 2 (← ungroup (fun c => c == '0' || c == '1') rest))
  | s => do
    let (neg, body) := splitSign s
    let n : Int := ofDigits (← wholeDigits body)
    checkRange (if neg then -n else n)

def groupChar (c : Char) : Bool := c.isDigit || c == '_'

/-- The exponent part of a float; absent counts as zero. -/
def readExponent : List Char → Option Int
  | [] => some 0
  | c :: rest =>
    if c = 'e' ∨ c = 'E' then do
      let (neg, body) := splitSign rest
      let n : Int := ofDigits (← ungroup Char.isDigit body)
      return if neg then -n else n
    else none

def readDecimal (s : List Char) : Option Decimal := do
  let whole ← wholeDigits (s.takeWhile groupChar)
  match s.dropWhile groupChar with
  | [] => none
  | '.' :: rest =>
    let fraction ← ungroup Char.isDigit (rest.takeWhile groupChar)
    let e ← readExponent (rest.dropWhile groupChar)
    return ⟨ofDigits (whole ++ fraction), e - fraction.length⟩
  | rest => return ⟨ofDigits whole, ← readExponent rest⟩

def readFloat (s : List Char) : Option Binary64 :=
  let (neg, body) := splitSign s
  if body = "inf".toList then some (.inf neg)
  else if body = "nan".toList then some .nan
  else do
    let x := Binary64.ofDecimal neg (← readDecimal body)
    if x = .inf false then none else some x

/-! ## Dates and times -/

def takeDigits (count : Nat) (s : List Char) : Option (Nat × List Char) :=
  let ds := s.take count
  if ds.length = count ∧ ds.all Char.isDigit then some (ofDigits ds, s.drop count) else none

def takeChar (c : Char) : List Char → Option (List Char)
  | d :: rest => if c = d then some rest else none
  | [] => none

def isLeapYear (year : Nat) : Bool :=
  year % 4 == 0 && (year % 100 != 0 || year % 400 == 0)

def daysIn (year month : Nat) : Nat :=
  if month = 2 then (if isLeapYear year then 29 else 28)
  else if month = 4 ∨ month = 6 ∨ month = 9 ∨ month = 11 then 30
  else 31

def takeDate (s : List Char) : Option (List Char) := do
  let (year, s) ← takeDigits 4 s
  let (month, s) ← takeDigits 2 (← takeChar '-' s)
  let (day, s) ← takeDigits 2 (← takeChar '-' s)
  if 1 ≤ month ∧ month ≤ 12 ∧ 1 ≤ day ∧ day ≤ daysIn year month then some s else none

/-- A time of day, down to any fraction of a second; a leap second is allowed. -/
def takeTime (s : List Char) : Option (List Char) := do
  let (hour, s) ← takeDigits 2 s
  let (minute, s) ← takeDigits 2 (← takeChar ':' s)
  let (second, s) ← takeDigits 2 (← takeChar ':' s)
  guard (hour ≤ 23 ∧ minute ≤ 59 ∧ second ≤ 60)
  match s with
  | '.' :: rest =>
    guard (rest.takeWhile Char.isDigit ≠ [])
    return rest.dropWhile Char.isDigit
  | s => return s

/-- The offset from universal time, if one stands there. -/
def takeOffset : List Char → Option (List Char)
  | [] => some []
  | c :: rest =>
    if c = 'Z' ∨ c = 'z' then some rest
    else if c = '+' ∨ c = '-' then do
      let (hour, s) ← takeDigits 2 rest
      let (minute, s) ← takeDigits 2 (← takeChar ':' s)
      guard (hour ≤ 23 ∧ minute ≤ 59)
      return s
    else some (c :: rest)

def isTime (s : List Char) : Bool := takeTime s == some []

def isOffsetTime (s : List Char) : Bool := (takeTime s).bind takeOffset == some []

def isDate (s : List Char) : Bool := takeDate s == some []

/-- A date, a time, or both with an optional offset. -/
def isMoment (s : List Char) : Bool :=
  isTime s ||
    match takeDate s with
    | some [] => true
    | some (c :: rest) => (c == 'T' || c == 't') && isOffsetTime rest
    | none => false

def isDelimiter (c : Char) : Bool :=
  c == ' ' || c == '\t' || c == '\n' || c == '\r' || c == ',' || c == ']' || c == '\x7d' || c == '#'

def readRun (s : List Char) : Option Item :=
  if s = "true".toList ∨ s = "false".toList then some .boolean
  else if isMoment s then some .moment
  else
    match readFloat s with
    | some x => some (.float x)
    | none => (readInteger s).map .integer

/-- Takes a run off the front. A date and a time may be parted by a single space. -/
def takeRun (s : List Char) : Option (Item × List Char) := do
  let run := s.takeWhile fun c => !isDelimiter c
  let rest := s.dropWhile fun c => !isDelimiter c
  let item ← readRun run
  match rest with
  | ' ' :: later =>
    if isDate run && isOffsetTime (later.takeWhile fun c => !isDelimiter c) then
      return (item, later.dropWhile fun c => !isDelimiter c)
    else return (item, rest)
  | rest => return (item, rest)

/-! ## Texts -/

/-- Characters that a text or a comment may hold as they are; line ends are not among them. -/
def isPlain (c : Char) : Bool := c == '\t' || (0x20 ≤ c.toNat && c.toNat != 0x7F)

/-- The character with a number, surrogates excluded. -/
def ofScalar (n : Nat) : Option Char :=
  if h : n.isValidChar then some (Char.ofNatAux n h) else none

def ofHex (ds : List Char) : Option Char :=
  if ds.all hexDigit then ofScalar (ofBase 16 ds) else none

def unescaped (c : Char) : Option Char :=
  if c = '"' ∨ c = '\\' then some c
  else if c = 'b' then some '\x08'
  else if c = 'f' then some '\x0c'
  else if c = 'n' then some '\n'
  else if c = 'r' then some '\r'
  else if c = 't' then some '\t'
  else none

/-- A text in double quotes from after the opening one. -/
def takeQuoted : List Char → Option (List Char × List Char)
  | [] => none
  | '"' :: rest => some ([], rest)
  | '\\' :: 'u' :: a :: b :: c :: d :: rest => do
    let x ← ofHex [a, b, c, d]
    let (cs, rest) ← takeQuoted rest
    return (x :: cs, rest)
  | '\\' :: 'U' :: a :: b :: c :: d :: e :: f :: g :: h :: rest => do
    let x ← ofHex [a, b, c, d, e, f, g, h]
    let (cs, rest) ← takeQuoted rest
    return (x :: cs, rest)
  | '\\' :: e :: rest => do
    let x ← unescaped e
    let (cs, rest) ← takeQuoted rest
    return (x :: cs, rest)
  | c :: rest => do
    guard (isPlain c ∧ c ≠ '\\')
    let (cs, rest) ← takeQuoted rest
    return (c :: cs, rest)

def takeLiteral : List Char → Option (List Char × List Char)
  | [] => none
  | '\x27' :: rest => some ([], rest)
  | c :: rest => do
    guard (isPlain c)
    let (cs, rest) ← takeLiteral rest
    return (c :: cs, rest)

def takeNewline : List Char → Option (List Char)
  | '\n' :: rest => some rest
  | '\r' :: '\n' :: rest => some rest
  | _ => none

def skipBlanks (s : List Char) : List Char := s.dropWhile fun c => c == ' ' || c == '\t'

/-- Everything after a backslash at the end of a line: the line end, and all white space up to the
next character. -/
def skipContinuation (s : List Char) : Option (List Char) := do
  let rest ← takeNewline (skipBlanks s)
  return skipWhite rest.length rest
where
  /-- Skips blanks and line ends; at most so many steps are needed. -/
  skipWhite : Nat → List Char → List Char
    | 0, s => s
    | fuel + 1, s =>
      match takeNewline (skipBlanks s) with
      | some rest => skipWhite fuel rest
      | none => skipBlanks s

/-- How a text of several lines ends at a run of quotes: with three of them, up to two more in front
being part of the text. The result is how many are part of the text. -/
def closing? (quotes : Nat) : Option Nat :=
  if 3 ≤ quotes ∧ quotes ≤ 5 then some (quotes - 3) else none

/-- A text in three double quotes from after the opening ones. Every step takes a character. -/
def takeQuotedLines : Nat → List Char → Option (List Char × List Char)
  | 0, _ => none
  | _, [] => none
  | fuel + 1, '"' :: rest =>
    let run := '"' :: rest.takeWhile (· == '"')
    let after := rest.dropWhile (· == '"')
    match closing? run.length with
    | some inside => some (List.replicate inside '"', after)
    | none =>
      if 3 ≤ run.length then none
      else (takeQuotedLines fuel after).map fun (cs, rest) => (run ++ cs, rest)
  | fuel + 1, '\\' :: 'u' :: a :: b :: c :: d :: rest => do
    let x ← ofHex [a, b, c, d]
    (takeQuotedLines fuel rest).map fun (cs, rest) => (x :: cs, rest)
  | fuel + 1, '\\' :: 'U' :: a :: b :: c :: d :: e :: f :: g :: h :: rest => do
    let x ← ofHex [a, b, c, d, e, f, g, h]
    (takeQuotedLines fuel rest).map fun (cs, rest) => (x :: cs, rest)
  | fuel + 1, '\\' :: rest =>
    match skipContinuation rest with
    | some rest => takeQuotedLines fuel rest
    | none => do
      let x ← unescaped (← rest.head?)
      (takeQuotedLines fuel rest.tail).map fun (cs, rest) => (x :: cs, rest)
  | fuel + 1, c :: rest =>
    match takeNewline (c :: rest) with
    | some rest => (takeQuotedLines fuel rest).map fun (cs, rest) => ('\n' :: cs, rest)
    | none => do
      guard (isPlain c)
      (takeQuotedLines fuel rest).map fun (cs, rest) => (c :: cs, rest)

/-- A text in three single quotes from after the opening ones. Every step takes a character. -/
def takeLiteralLines : Nat → List Char → Option (List Char × List Char)
  | 0, _ => none
  | _, [] => none
  | fuel + 1, '\x27' :: rest =>
    let run := '\x27' :: rest.takeWhile (· == '\x27')
    let after := rest.dropWhile (· == '\x27')
    match closing? run.length with
    | some inside => some (List.replicate inside '\x27', after)
    | none =>
      if 3 ≤ run.length then none
      else (takeLiteralLines fuel after).map fun (cs, rest) => (run ++ cs, rest)
  | fuel + 1, c :: rest =>
    match takeNewline (c :: rest) with
    | some rest => (takeLiteralLines fuel rest).map fun (cs, rest) => ('\n' :: cs, rest)
    | none => do
      guard (isPlain c)
      (takeLiteralLines fuel rest).map fun (cs, rest) => (c :: cs, rest)

/-- A line end right after the opening quotes is not part of the text. -/
def dropFirstNewline (s : List Char) : List Char := (takeNewline s).getD s

def takeText : List Char → Option (String × List Char)
  | '"' :: '"' :: '"' :: rest => named (takeQuotedLines (rest.length + 1) (dropFirstNewline rest))
  | '"' :: rest => named (takeQuoted rest)
  | '\x27' :: '\x27' :: '\x27' :: rest =>
    named (takeLiteralLines (rest.length + 1) (dropFirstNewline rest))
  | '\x27' :: rest => named (takeLiteral rest)
  | _ => none
where
  /-- The characters as one text. -/
  named (r : Option (List Char × List Char)) : Option (String × List Char) :=
    r.map fun (cs, rest) => (String.ofList cs, rest)

end Ratchet.Toml
