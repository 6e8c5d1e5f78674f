import Ratchet.Baseline
import Ratchet.FileTree

/-!
# Baseline files

Loading wants the file to be there: a missing file is a fault of its own, not an empty baseline.
Saving replaces the whole file or, when a name cannot be written or the place is not fit for a file,
leaves the tree as it is.
-/

namespace Ratchet.Baseline

structure Loading where
  outcome : Except Fault Baseline
  notices : List Notice

def load (t : FileTree) (path : String) : Loading :=
  match t.readText path with
  | .error .notFound => ⟨.error (.missingFile path), []⟩
  | .error kind => ⟨.error (.io kind), []⟩
  | .ok content =>
    let reading := read content
    match reading.outcome with
    | .ok b => ⟨.ok b, reading.notices⟩
    | .error (line, flaw) => ⟨.error (.baseline path line flaw.reason), reading.notices⟩

def save (b : Baseline) (t : FileTree) (path : String) : Except Fault FileTree := do
  let text ← b.render
  (t.replace path (.ofText text)).mapError Fault.io

def savedNotice (b : Baseline) (path : String) : Notice := .wrote b.size path

end Ratchet.Baseline
