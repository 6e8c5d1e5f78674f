import Ratchet.Toml.Scalar

/-!
# Reading TOML documents

A document is a sequence of statements, one a line, with blanks, comments and empty lines between
them. `Toml.read?` reads the statements and builds the document that they make up.
-/

namespace Ratchet.Toml

def isBareKey (c : Char) : Bool := c.isAlphanum || c == '_' || c == '-'

def takeKeyPart : List Char → Option (String × List Char)
  | '"' :: rest => (takeQuoted rest).map fun (cs, rest) => (String.ofList cs, rest)
  | '\x27' :: rest => (takeLiteral rest).map fun (cs, rest) => (String.ofList cs, rest)
  | s =>
    match s.takeWhile isBareKey with
    | [] => none
    | cs => some (String.ofList cs, s.dropWhile isBareKey)

/-- How deep keys and values may nest. -/
def nestingLimit : Nat := 80

/-- The parts of a key between dots, the last one apart. Every part takes a character. -/
def takeKeyParts : Nat → List Char → Option (List String × String × List Char)
  | 0, _ => none
  | fuel + 1, s => do
    let (part, rest) ← takeKeyPart (skipBlanks s)
    match skipBlanks rest with
    | '.' :: rest =>
      let (path, key, rest) ← takeKeyParts fuel rest
      return (part :: path, key, rest)
    | rest => return ([], part, rest)

/-- A plain or dotted key: the keys leading to it, and its own. -/
def takeKey (s : List Char) : Option (List String × String × List Char) := do
  let (path, key, rest) ← takeKeyParts (s.length + 1) s
  guard (path.length + 1 < nestingLimit)
  return (path, key, rest)

/-- Skips a comment, which has to be made of plain characters, up to the end of its line. -/
def skipComment : List Char → Option (List Char)
  | '#' :: rest => some (rest.dropWhile isPlain)
  | s => some s

/-- Skips blanks, line ends and comments inside an array. Every step takes a line end. -/
def skipTrivia : Nat → List Char → Option (List Char)
  | 0, s => some s
  | fuel + 1, s =>
    match skipBlanks s with
    | '#' :: rest => do skipTrivia fuel (← takeNewline (rest.dropWhile isPlain))
    | s =>
      match takeNewline s with
      | some rest => skipTrivia fuel rest
      | none => some s

mutual

/-- A value off the front of a text, nested at most `levels` deep. Every step of the nested readers
takes a character or passes on to the next reader. -/
def takeValue : Nat → Nat → List Char → Option (Item × List Char)
  | 0, _, _ => none
  | fuel + 1, levels, s =>
    match s with
    | '"' :: _ => (takeText s).map fun (t, rest) => (.text t, rest)
    | '\x27' :: _ => (takeText s).map fun (t, rest) => (.text t, rest)
    | '[' :: rest => do
      guard (1 < levels)
      let (items, rest) ← takeItems fuel (levels - 1) rest
      return (.array items, rest)
    | '\x7b' :: rest => do
      guard (1 < levels)
      match skipBlanks rest with
      | '\x7d' :: rest => return (.braced [], rest)
      | rest =>
        let (pairs, rest) ← takePairs fuel (levels - 1) rest
        return (.braced (← buildBraced [] pairs), rest)
    | s => takeRun s

def takeItems : Nat → Nat → List Char → Option (List Item × List Char)
  | 0, _, _ => none
  | fuel + 1, levels, s => do
    match ← skipTrivia (s.length + 1) s with
    | ']' :: rest => return ([], rest)
    | s =>
      let (item, rest) ← takeValue fuel levels s
      match ← skipTrivia (rest.length + 1) rest with
      | ',' :: rest =>
        let (items, rest) ← takeItems fuel levels rest
        return (item :: items, rest)
      | ']' :: rest => return ([item], rest)
      | _ => none

def takePairs : Nat → Nat → List Char → Option (List (List String × String × Item) × List Char)
  | 0, _, _ => none
  | fuel + 1, levels, s => do
    let (path, key, rest) ← takeKey s
    let rest ← takeChar '=' rest
    let (item, rest) ← takeValue fuel levels (skipBlanks rest)
    match skipBlanks rest with
    | ',' :: rest =>
      let (pairs, rest) ← takePairs fuel levels rest
      return ((path, key, item) :: pairs, rest)
    | '\x7d' :: rest => return ([(path, key, item)], rest)
    | _ => none

end

/-- What may follow a statement: blanks, a comment, and the end of the line or of the document. -/
def takeLineEnd (s : List Char) : Option (List Char) := do
  match ← skipComment (skipBlanks s) with
  | [] => return []
  | s => takeNewline s

def takeStatement (s : List Char) : Option (Statement × List Char) :=
  match s with
  | '[' :: '[' :: rest => do
    let (path, key, rest) ← takeKey rest
    let rest ← takeLineEnd (← takeChar ']' (← takeChar ']' rest))
    return (.repeated path key, rest)
  | '[' :: rest => do
    let (path, key, rest) ← takeKey rest
    let rest ← takeLineEnd (← takeChar ']' rest)
    return (.heading path key, rest)
  | s => do
    let (path, key, rest) ← takeKey s
    let rest ← takeChar '=' rest
    let (item, rest) ← takeValue (2 * rest.length + 2) nestingLimit (skipBlanks rest)
    return (.assignment path key item, ← takeLineEnd rest)

/-- The statements of a document. Every step takes a line end or a statement. -/
def takeStatements : Nat → List Char → Option (List Statement)
  | 0, _ => none
  | fuel + 1, s =>
    match skipBlanks s with
    | [] => some []
    | c :: rest =>
      if c = '#' ∨ c = '\n' ∨ c = '\r' then do
        takeStatements fuel (← takeLineEnd (c :: rest))
      else do
        let (statement, rest) ← takeStatement (c :: rest)
        return statement :: (← takeStatements fuel rest)

/-- A mark of the byte order at the start is skipped. -/
def dropByteOrderMark : List Char → List Char
  | '\uFEFF' :: rest => rest
  | s => s

def read? (s : String) : Option Entries := do
  let cs := dropByteOrderMark s.toList
  build [] [] (← takeStatements (cs.length + 1) cs)

end Ratchet.Toml
