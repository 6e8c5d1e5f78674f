import Ratchet.Number.Decimal

/-!
# TOML tables

An `Item` is what a TOML key can stand for. A table remembers how it came to be, because that
decides who may still extend it: `descend` follows a path of keys, makes the tables that are
missing, and refuses to go through values and, for dotted keys, through tables that stand defined.
Dates and times are checked where they are read and carry nothing further.
-/

namespace Ratchet.Toml

/-- How a table came to be. -/
inductive Origin where
  /-- Under a heading of its own, or as the document itself. -/
  | heading
  /-- On the way to a heading further down. -/
  | passage
  /-- On the way of a dotted key. -/
  | dotted
  deriving DecidableEq, Repr

inductive Item where
  | integer (n : Int)
  | float (x : Binary64)
  | text (s : String)
  | boolean
  | moment
  | array (items : List Item)
  /-- A table in braces, complete in itself. -/
  | braced (entries : List (String × Item))
  | table (origin : Origin) (entries : List (String × Item))
  /-- Tables under repeated headings of one name; the last is still open. -/
  | tables (before : List (List (String × Item))) (last : List (String × Item))

abbrev Entries := List (String × Item)

namespace Entries

def get? (key : String) (es : Entries) : Option Item := es.lookup key

def replace (key : String) (item : Item) (es : Entries) : Entries :=
  es.map fun e => if e.1 = key then (key, item) else e

end Entries

/-- Follows a path of keys below a table and applies `f` to the table reached, with its origin. -/
def descend (dotted : Bool) (f : Origin → Entries → Option Entries) :
    List String → Origin → Entries → Option Entries
  | [], origin, es => f origin es
  | key :: rest, _, es =>
    match es.get? key with
    | none =>
      let origin := if dotted then Origin.dotted else .passage
      (descend dotted f rest origin []).map fun sub => es ++ [(key, .table origin sub)]
    | some (.table origin sub) =>
      if dotted ∧ origin = .heading then none
      else (descend dotted f rest origin sub).map fun sub => es.replace key (.table origin sub)
    | some (.tables before last) =>
      (descend dotted f rest .heading last).map fun last => es.replace key (.tables before last)
    | some _ => none

/-- Adds a key that is not there yet. A dotted key adds to tables that dotted keys made, and a plain
key to the table it stands in. -/
def addKey (dotted : Bool) (key : String) (item : Item) (origin : Origin) (es : Entries) :
    Option Entries :=
  if (origin == .dotted) != dotted then none
  else
    match es.get? key with
    | some _ => none
    | none => some (es ++ [(key, item)])

/-- Adds an item under a dotted or plain key: the keys leading to it, and its own. -/
def assign (path : List String) (key : String) (item : Item) (origin : Origin) (es : Entries) :
    Option Entries :=
  descend (!path.isEmpty) (addKey (!path.isEmpty) key item) path origin es

/-- Opens the table of a heading: a new one, or one that was made in passing. -/
def openTable (key : String) (_ : Origin) (es : Entries) : Option Entries :=
  match es.get? key with
  | none => some (es ++ [(key, .table .heading [])])
  | some (.table .passage sub) => some (es.replace key (.table .heading sub))
  | some _ => none

def openRow (key : String) (_ : Origin) (es : Entries) : Option Entries :=
  match es.get? key with
  | none => some (es ++ [(key, .tables [] [])])
  | some (.tables before last) => some (es.replace key (.tables (before ++ [last]) []))
  | some _ => none

/-- A line of a document that is not blank. A path is split before its last key. -/
inductive Statement where
  | heading (path : List String) (key : String)
  | repeated (path : List String) (key : String)
  | assignment (path : List String) (key : String) (item : Item)

/-- Carries out a statement on a document; `here` is the path of the table under whose heading it
stands. The result is the document and the path for the statements that follow. -/
def Statement.apply (here : List String) (doc : Entries) :
    Statement → Option (List String × Entries)
  | heading path key =>
    (descend false (openTable key) path .heading doc).map fun doc => (path ++ [key], doc)
  | repeated path key =>
    (descend false (openRow key) path .heading doc).map fun doc => (path ++ [key], doc)
  | assignment path key item =>
    (descend false (assign path key item) here .heading doc).map fun doc => (here, doc)

def build (here : List String) (doc : Entries) : List Statement → Option Entries
  | [] => some doc
  | s :: rest =>
    match s.apply here doc with
    | none => none
    | some (here, doc) => build here doc rest

/-- The entries of a table in braces. -/
def buildBraced (es : Entries) : List (List String × String × Item) → Option Entries
  | [] => some es
  | (path, key, item) :: rest =>
    match assign path key item .heading es with
    | none => none
    | some es => buildBraced es rest

end Ratchet.Toml
