import Ratchet.Moments
import Ratchet.NameMap
import Ratchet.Observation

/-!
# Tallies

A `Tally` keeps, for every metric of a stream, its running statistics and its values in the order
of their arrival: the convergence gate needs the values again once the final mean is known.

`Tally.readLines` records a stream line by line. The first line that does not read ends the reading;
the lines before it stay recorded.
-/

namespace Ratchet

structure Samples where
  moments : Moments Binary64
  /-- In the order of arrival. -/
  values : Array Binary64

namespace Samples

def empty : Samples := ⟨∅, #[]⟩

def push (s : Samples) (x : Binary64) : Samples := ⟨s.moments.push x, s.values.push x⟩

end Samples

/-- The samples of every metric, by name. -/
abbrev Tally := NameMap Samples

namespace Tally

def observe (t : Tally) (name : String) (x : Binary64) : Tally :=
  t.update name fun samples => (samples.getD .empty).push x

def record (t : Tally) (o : Observation) : Tally := t.observe o.name o.value

/-- Records lines in order; `read` lines came before them. The result is the tally reached and the
number of lines read, or the fault of the first line that does not read. -/
def readLines (t : Tally) (read : Nat) : List Bytes → Tally × Except Fault Nat
  | [] => (t, .ok read)
  | line :: rest =>
    match Observation.readBytes (read + 1) line with
    | .ok o => readLines (t.record o) (read + 1) rest
    | .error fault => (t, .error fault)

def streamLines (stream : Bytes) : List Bytes := Text.lines 10 13 stream

def readStream (t : Tally) (stream : Bytes) : Tally × Except Fault Nat :=
  t.readLines 0 (streamLines stream)

end Tally

end Ratchet
