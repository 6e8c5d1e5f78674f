import Ratchet.Fault
import Ratchet.Text.Bytes
import Ratchet.Text.Lines

/-!
# File trees

A `FileTree` holds files with their content, and directories, and names the directory a tool runs
in. A `Place` is the list of names that lead from the root to a node. A path starts at the root if
it is absolute, else in the directory of the tool, and is followed step by step. Each step needs the
place before it to be a directory: a missing one is `notFound`, a file in the way is
`notADirectory`. Names and paths have a greatest length, in bytes of UTF-8.

`FileTree.replace` puts a file in the place of whatever file is there, all at once: it either fails
and leaves the tree as it is, or changes exactly one node (`get?_set`). The new file comes into
being beside its target and moves there when it is complete, so what is wrong with the directory is
found before what is wrong with the target.
-/

namespace Ratchet

/-- The names that lead from the root of a tree to a node. -/
abbrev Place := List String

inductive Node where
  | file (content : Bytes)
  | directory
  deriving DecidableEq

structure FileTree where
  /-- The directory a tool runs in. -/
  here : Place
  nodes : List (Place × Node)

/-! ## Paths -/

namespace Path

/-- The steps of a path; repeated slashes count once. -/
def steps (path : String) : List String :=
  ((Text.pieces '/' path.toList).filter (· ≠ [])).map String.ofList

def isAbsolute (path : String) : Bool := path.toList.head? == some '/'

/-- A path that asks for a directory by its form. -/
def endsInSlash (path : String) : Bool := path.toList.getLast? == some '/'

/-- The bytes that a name may have. -/
def nameLimit : Nat := 255

/-- The bytes that a path may have. -/
def lengthLimit : Nat := 4095

/-- What every file operation refuses at once. -/
def check (path : String) : Except IoKind Unit :=
  if path.toList.contains '\x00' then .error .invalidInput
  else if path.isEmpty then .error .notFound
  else if lengthLimit < path.utf8ByteSize then .error .invalidName
  else .ok ()

def start (here : Place) (path : String) : Place := if isAbsolute path then [] else here

def next (p : Place) (step : String) : Place :=
  if step = "." then p else if step = ".." then p.dropLast else p ++ [step]

def place (here : Place) (path : String) : Place := (steps path).foldl next (start here path)

/-- The places on the way of a path, and the one that it names. -/
def trail (here : Place) (path : String) : List Place :=
  (List.range ((steps path).length + 1)).map fun k =>
    ((steps path).take k).foldl next (start here path)

/-- Steps without the single dots at their end. -/
def dropDots (ss : List String) : List String := (ss.reverse.dropWhile (· = ".")).reverse

/-- The name of a file before it moves to its target. -/
def freshName : String := ".new-entry"

/-- The path from the root to the fresh file beside a target. -/
def beside (here : Place) (path : String) : String :=
  let dir := dropDots (dropDots (steps path)).dropLast
  "/" ++ "/".intercalate (start here path ++ dir ++ [freshName])

end Path

namespace FileTree

def get? (t : FileTree) (p : Place) : Option Node :=
  if p = [] then some .directory else t.nodes.lookup p

def erase (t : FileTree) (p : Place) : FileTree :=
  { t with nodes := t.nodes.filter fun e => e.1 ≠ p }

def set (t : FileTree) (p : Place) (n : Node) : FileTree :=
  { t with nodes := (p, n) :: (t.erase p).nodes }

theorem lookup_erase {t : FileTree} {p q : Place} (h : q ≠ p) :
    (t.erase p).nodes.lookup q = t.nodes.lookup q := by
  obtain ⟨here, nodes⟩ := t
  unfold erase
  induction nodes with
  | nil => rfl
  | cons e rest ih =>
    rw [List.filter_cons]
    split
    · rw [List.lookup_cons, List.lookup_cons, ih]
    · next hr =>
      have hq : (q == e.1) = false := by simp_all
      rw [ih, List.lookup_cons, hq]

theorem get?_set {t : FileTree} {p : Place} (hp : p ≠ []) (n : Node) (q : Place) :
    (t.set p n).get? q = if q = p then some n else t.get? q := by
  by_cases hq : q = p
  · subst hq; simp [get?, set, hp]
  · have hbeq : (q == p) = false := by simpa using hq
    simp [get?, set, List.lookup_cons, hbeq, hq, lookup_erase hq]

/-! ## Following paths -/

/-- Follows steps from a place. The place reached need not exist. -/
def follow (t : FileTree) (p : Place) : List String → Except IoKind Place
  | [] => .ok p
  | step :: rest =>
    match t.get? p with
    | none => .error .notFound
    | some (.file _) => .error .notADirectory
    | some .directory =>
      if Path.nameLimit < step.utf8ByteSize then .error .invalidName
      else t.follow (Path.next p step) rest

def locate (t : FileTree) (path : String) : Except IoKind Place := do
  Path.check path
  t.follow (Path.start t.here path) (Path.steps path ++ (if Path.endsInSlash path then ["."] else []))

def read (t : FileTree) (path : String) : Except IoKind Bytes := do
  match t.get? (← t.locate path) with
  | none => .error .notFound
  | some .directory => .error .isADirectory
  | some (.file content) => .ok content

def readText (t : FileTree) (path : String) : Except IoKind String := do
  match (← t.read path).toText? with
  | some text => .ok text
  | none => .error .invalidData

/-- Looks for what stands under a path; that nothing does is no failure. -/
def look (t : FileTree) (path : String) : Except IoKind Unit :=
  match t.locate path with
  | .error .notFound => .ok ()
  | .error kind => .error kind
  | .ok _ => .ok ()

/-- Where a file can move to under a path: its last step names an entry, which is no directory, of a
directory that exists. -/
def entry (t : FileTree) (path : String) : Except IoKind Place := do
  Path.check path
  let steps := Path.steps path
  let parent ← t.follow (Path.start t.here path) steps.dropLast
  match t.get? parent with
  | none => .error .notFound
  | some (.file _) => .error .notADirectory
  | some .directory =>
    let name := steps.getLastD "."
    if name = "." ∨ name = ".." then .error .resourceBusy
    else if Path.endsInSlash path then .error .notADirectory
    else
      match t.get? (parent ++ [name]) with
      | some .directory => .error .isADirectory
      | _ => .ok (parent ++ [name])

/-- Where a file can be put under a path: a fresh file can be made beside the target, and can move
there. -/
def fileEntry (t : FileTree) (path : String) : Except IoKind Place := do
  let _ ← t.locate (Path.beside t.here path)
  t.look path
  t.entry path

/-- Puts a file under a path, in the place of the one that may be there. -/
def replace (t : FileTree) (path : String) (content : Bytes) : Except IoKind FileTree := do
  return t.set (← t.fileEntry path) (.file content)

def addDirectory (t : FileTree) (p : Place) : FileTree :=
  (List.range (p.length + 1)).foldl (fun t k =>
    if k = 0 ∨ (t.get? (p.take k)).isSome then t else t.set (p.take k) .directory) t

/-- Puts a file at a place, making the directories above it. -/
def addFile (t : FileTree) (p : Place) (content : Bytes) : FileTree :=
  (t.addDirectory p.dropLast).set p (.file content)

/-- The tree with nothing but the directory a tool runs in. -/
def bare (here : Place) : FileTree := addDirectory ⟨here, []⟩ here

/-- The tree that holds some files below the directory a tool runs in. -/
def ofFiles (here : Place) (files : List (String × Bytes)) : FileTree :=
  files.foldl (fun t f => t.addFile (Path.place here f.1) f.2) (bare here)

/-- Every file below the directory a tool runs in, under its path from there. -/
def files (t : FileTree) : List (String × Bytes) :=
  t.nodes.filterMap fun e =>
    match e.2 with
    | .file content =>
      if t.here.isPrefixOf e.1 then some ("/".intercalate (e.1.drop t.here.length), content) else none
    | .directory => none

end FileTree

end Ratchet
