import Ratchet.Moments
import Ratchet.Number.Layout

/-!
# Recorders

A benchmark records its samples in a `Recorder` and prints their average as one measurement line,
under its name with a mark in front. The line reads back as an observation of the average unless
the name holds a colon or a tab, or the average is not finite.
-/

namespace Ratchet

structure Recorder where
  name : String
  moments : Moments Binary64
  /-- In the order of recording. -/
  values : Array Binary64

namespace Recorder

/-- What the name of every recorded metric begins with. -/
def mark : String := "[PERF]"

def new (name : String) : Recorder := ⟨name, ∅, #[]⟩

def put (r : Recorder) (x : Binary64) : Recorder :=
  { r with moments := r.moments.push x, values := r.values.push x }

def average (r : Recorder) : Binary64 := r.moments.mean

def reportLine (r : Recorder) : String := mark ++ r.name ++ ": " ++ r.average.plain

def report (r : Recorder) : String := r.reportLine ++ "\n"

end Recorder

end Ratchet
