import Ratchet.Json.Number

/-!
# Reading JSON documents

`Json.Written` is a document as it was written: numbers keep their digits, and a text is kept even
if its escapes do not make up characters, so that a part nobody looks at has to be well formed and
nothing more. `Json.Written.read?` accepts exactly one document with white space around it.
-/

namespace Ratchet.Json

/-- A document as it was written. -/
inductive Written where
  /-- One of `null`, `true` and `false`. -/
  | word
  | number (text : NumberText)
  /-- A text, if its escapes make up characters. -/
  | text (content : Option String)
  | list (items : List Written)
  | object (fields : List (Option String × Written))

/-- What stands in a text for one place: a character, or a UTF-16 unit given by number. -/
inductive Place where
  | char (c : Char)
  | unit (n : Nat)

def hexValue (c : Char) : Option Nat :=
  if c.isDigit then some (c.toNat - '0'.toNat)
  else if 'a' ≤ c ∧ c ≤ 'f' then some (c.toNat - 'a'.toNat + 10)
  else if 'A' ≤ c ∧ c ≤ 'F' then some (c.toNat - 'A'.toNat + 10)
  else none

def fourHexValue (a b c d : Char) : Option Nat := do
  return 4096 * (← hexValue a) + 256 * (← hexValue b) + 16 * (← hexValue c) + (← hexValue d)

def unescaped (c : Char) : Option Char :=
  if c = '"' ∨ c = '\\' ∨ c = '/' then some c
  else if c = 'b' then some '\x08'
  else if c = 'f' then some '\x0c'
  else if c = 'n' then some '\n'
  else if c = 'r' then some '\r'
  else if c = 't' then some '\t'
  else none

/-- The places of a text up to its closing quote, and what follows. -/
def readPlaces : List Char → Option (List Place × List Char)
  | [] => none
  | '"' :: rest => some ([], rest)
  | '\\' :: 'u' :: a :: b :: c :: d :: rest => do
    let n ← fourHexValue a b c d
    let (places, rest) ← readPlaces rest
    return (.unit n :: places, rest)
  | '\\' :: e :: rest => do
    let c ← unescaped e
    let (places, rest) ← readPlaces rest
    return (.char c :: places, rest)
  | c :: rest =>
    if c.toNat < 0x20 ∨ c = '\\' then none
    else do
      let (places, rest) ← readPlaces rest
      return (.char c :: places, rest)

def isLeading (n : Nat) : Bool := decide (0xD800 ≤ n ∧ n < 0xDC00)

def isTrailing (n : Nat) : Bool := decide (0xDC00 ≤ n ∧ n < 0xE000)

/-- The characters that places make up; surrogates count in pairs only. -/
def joinPlaces : List Place → Option (List Char)
  | [] => some []
  | .char c :: rest => (joinPlaces rest).map (c :: ·)
  | .unit n :: .unit m :: rest =>
    if isLeading n then
      if isTrailing m then
        (joinPlaces rest).map (Char.ofNat (0x10000 + (n - 0xD800) * 0x400 + (m - 0xDC00)) :: ·)
      else none
    else if isTrailing n then none
    else (joinPlaces (.unit m :: rest)).map (Char.ofNat n :: ·)
  | .unit n :: rest =>
    if isLeading n || isTrailing n then none else (joinPlaces rest).map (Char.ofNat n :: ·)

/-- Reads a text whose opening quote has been taken. -/
def readText (s : List Char) : Option (Option String × List Char) := do
  let (places, rest) ← readPlaces s
  return ((joinPlaces places).map String.ofList, rest)

def isSpace (c : Char) : Bool := c == ' ' || c == '\t' || c == '\n' || c == '\r'

def skipSpace (s : List Char) : List Char := s.dropWhile isSpace

def takeWord (word s : List Char) : Option (List Char) :=
  if s.take word.length = word then some (s.drop word.length) else none

/-- Takes `null`, `true` or `false` off the front of a text. -/
def readWord (s : List Char) : Option (List Char) :=
  (takeWord "null".toList s).orElse fun _ =>
    (takeWord "true".toList s).orElse fun _ => takeWord "false".toList s

namespace Written

mutual

/-- One document off the front of a text. Every step of the nested readers takes a character or
passes on to the next reader, so twice the length of the text is enough fuel. -/
def readValue : Nat → List Char → Option (Written × List Char)
  | 0, _ => none
  | fuel + 1, s =>
    match skipSpace s with
    | '"' :: rest => (readText rest).map fun (content, rest) => (.text content, rest)
    | '[' :: rest =>
      match skipSpace rest with
      | ']' :: rest => some (.list [], rest)
      | rest => (readItems fuel rest).map fun (items, rest) => (.list items, rest)
    | '\x7b' :: rest =>
      match skipSpace rest with
      | '\x7d' :: rest => some (.object [], rest)
      | rest => (readFields fuel rest).map fun (fields, rest) => (.object fields, rest)
    | s =>
      match readWord s with
      | some rest => some (.word, rest)
      | none => (NumberText.read s).map fun (n, rest) => (.number n, rest)

def readItems : Nat → List Char → Option (List Written × List Char)
  | 0, _ => none
  | fuel + 1, s => do
    let (item, rest) ← readValue fuel s
    match skipSpace rest with
    | ',' :: rest =>
      let (items, rest) ← readItems fuel rest
      return (item :: items, rest)
    | ']' :: rest => return ([item], rest)
    | _ => none

def readFields : Nat → List Char → Option (List (Option String × Written) × List Char)
  | 0, _ => none
  | fuel + 1, s =>
    match skipSpace s with
    | '"' :: rest => do
      let (name, rest) ← readText rest
      match skipSpace rest with
      | ':' :: rest =>
        let (value, rest) ← readValue fuel rest
        match skipSpace rest with
        | ',' :: rest =>
          let (fields, rest) ← readFields fuel rest
          return ((name, value) :: fields, rest)
        | '\x7d' :: rest => return ([(name, value)], rest)
        | _ => none
      | _ => none
    | _ => none

end

def read? (s : String) : Option Written :=
  match readValue (2 * s.length + 2) s.toList with
  | some (value, rest) => if (skipSpace rest).isEmpty then some value else none
  | none => none

end Written

end Ratchet.Json
