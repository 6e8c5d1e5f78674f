import Ratchet.Usage
import Ratchet.Program

/-!
# The command line

The first argument is the name of a tool, the others are the arguments of the tool. What stands at
the paths that they name is read into a `FileTree` first; the tool then runs on that tree, and the
one file that it may have written is put in its place by renaming.
-/

namespace Ratchet

/-- The paths a tool may read from or write to. -/
def CommandLine.Command.paths : CommandLine.Command → List String
  | .converge output => [output]
  | .accept reference checked => [reference, checked]

namespace Disk

/-- Adds what stands at a place on the disk to a tree. -/
def look (t : FileTree) (p : Place) : IO FileTree := do
  let path := (← IO.currentDir) / ("/" ++ "/".intercalate p)
  if ← path.isDir then return t.addDirectory p
  if ← path.pathExists then return t.addFile p (← IO.FS.readBinFile path).toList
  return t

def tree (paths : List String) : IO FileTree := do
  let here := Path.place [] (← IO.currentDir).toString
  (paths.flatMap (Path.trail here)).foldlM look (.bare here)

def replace (here : Place) (path : String) (content : Bytes) : IO Unit := do
  let fresh := Path.beside here path
  IO.FS.writeBinFile fresh ⟨content.toArray⟩
  IO.FS.rename fresh path

/-- Writes the files that the notices of a run say it wrote. -/
def keep (e : Program.Ending) : IO Unit :=
  e.notices.forM fun
    | .wrote _ path =>
      match e.tree.read path with
      | .ok content => replace e.tree.here path content
      | .error _ => pure ()
    | _ => pure ()

end Disk

/-- Says why a command line starts no run. -/
def CommandLine.Stop.tell (stop : CommandLine.Stop) (tool : Tool) : IO Unit :=
  match stop.complaint? with
  | some complaint => IO.eprintln ("error: " ++ complaint ++ "\n\n" ++ tool.usage)
  | none => if stop = .help then IO.print tool.usage else pure ()

def Tool.start (tool : Tool) (args : List String) : IO Nat := do
  match CommandLine.read tool args with
  | .error stop =>
    let e := Program.stopped tool stop (.bare [])
    stop.tell tool
    IO.print e.stdout
    return e.code
  | .ok (command, given) =>
    let stdin ← if tool = .converge then (← IO.getStdin).readBinToEnd else pure ByteArray.empty
    let t ← Disk.tree (command.paths ++ given.config.toList)
    let e := Program.run tool args stdin.toList t
    Disk.keep e
    if given.debug then e.notices.forM fun n => IO.eprintln n.text
    IO.print e.stdout
    IO.eprint e.stderr
    unless e.stderr.isEmpty || e.stderr.endsWith "\n" do IO.eprintln ""
    return e.code

end Ratchet

def main (args : List String) : IO UInt32 := do
  match [Ratchet.Tool.converge, .accept].find? fun tool => args.head? = some tool.name with
  | some tool =>
    try return (← tool.start args.tail).toUInt32
    catch failure =>
      IO.eprintln ("Error: " ++ toString failure)
      return Ratchet.ExitStatus.fatal.code.toUInt32
  | none =>
    IO.eprintln ("error: name a tool, perf-converge or perf-accept")
    return 2
