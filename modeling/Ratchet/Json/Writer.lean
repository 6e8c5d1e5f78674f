import Ratchet.Number.Layout

/-!
# JSON documents

A `Json` is a document to be written: objects keep the order of their fields, counts are written as
whole numbers, and a number that is not finite is written as `null`. `compact` writes a document in
one piece; `pretty` puts every field and item on a line of its own, indented by two spaces a level,
and closes empty objects and lists at once.
-/

namespace Ratchet

inductive Json where
  | null
  | number (x : Binary64)
  | count (n : Nat)
  | text (s : String)
  | list (items : List Json)
  | object (fields : List (String × Json))

namespace Json

def fourHex (n : Nat) : List Char :=
  let ds := Nat.toDigits 16 n
  List.replicate (4 - ds.length) '0' ++ ds

/-- A character inside a JSON text: quotes, backslashes and controls are escaped, nothing else. -/
def escaped (c : Char) : List Char :=
  if c = '"' then ['\\', '"']
  else if c = '\\' then ['\\', '\\']
  else if c = '\x08' then ['\\', 'b']
  else if c = '\t' then ['\\', 't']
  else if c = '\n' then ['\\', 'n']
  else if c = '\x0c' then ['\\', 'f']
  else if c = '\r' then ['\\', 'r']
  else if c.toNat < 0x20 then '\\' :: 'u' :: fourHex c.toNat
  else [c]

def textChars (s : String) : List Char := '"' :: s.toList.flatMap escaped ++ ['"']

def numberChars (x : Binary64) : List Char :=
  if x.isFinite then Layout.json.number x else "null".toList

mutual

def compactChars : Json → List Char
  | null => "null".toList
  | number x => numberChars x
  | count n => digits n
  | text s => textChars s
  | list items => '[' :: compactItems items ++ [']']
  | object fields => '\x7b' :: compactFields fields ++ ['\x7d']

def compactItems : List Json → List Char
  | [] => []
  | item :: rest => compactChars item ++ (if rest.isEmpty then [] else ',' :: compactItems rest)

def compactFields : List (String × Json) → List Char
  | [] => []
  | (name, value) :: rest =>
    textChars name ++ ':' :: compactChars value ++
      (if rest.isEmpty then [] else ',' :: compactFields rest)

end

def lineStart (level : Nat) : List Char := '\n' :: List.replicate (2 * level) ' '

mutual

/-- A document whose lines stand at a level. -/
def prettyChars (level : Nat) : Json → List Char
  | null => "null".toList
  | number x => numberChars x
  | count n => digits n
  | text s => textChars s
  | list [] => ['[', ']']
  | list (item :: rest) => '[' :: prettyItems level (item :: rest) ++ lineStart level ++ [']']
  | object [] => ['\x7b', '\x7d']
  | object (field :: rest) =>
    '\x7b' :: prettyFields level (field :: rest) ++ lineStart level ++ ['\x7d']

def prettyItems (level : Nat) : List Json → List Char
  | [] => []
  | item :: rest =>
    lineStart (level + 1) ++ prettyChars (level + 1) item ++
      (if rest.isEmpty then [] else ',' :: prettyItems level rest)

def prettyFields (level : Nat) : List (String × Json) → List Char
  | [] => []
  | (name, value) :: rest =>
    lineStart (level + 1) ++ textChars name ++ ':' :: ' ' :: prettyChars (level + 1) value ++
      (if rest.isEmpty then [] else ',' :: prettyFields level rest)

end

def compact (j : Json) : String := String.ofList j.compactChars

def pretty (j : Json) : String := String.ofList (j.prettyChars 0)

end Json

end Ratchet
