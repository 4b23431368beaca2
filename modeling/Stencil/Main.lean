/-
# The program

Arguments, files and standard input come in, output and an exit code go out.
Files are read as the need for them shows: a run that looks at places nobody
has looked at yet is repeated with what is there, until it sees nothing new.

Key definitions: `main`.
-/
import Std.Time.DateTime.Timestamp
import Stencil.CommandLine.Places

namespace Stencil.CommandLine

/-- What there is at a location is added to a tree. -/
def look (t : FileTree) (l : Location) : IO FileTree := do
  let path := (← IO.currentDir) / ("/" ++ "/".intercalate l)
  try
    let bytes ← IO.FS.readBinFile path
    pure { t with files := (l, bytes) :: t.files }
  catch _ =>
    pure (if ← path.isDir then { t with directories := l :: t.directories } else t)

/-- A request is carried out in the files that it looks at. -/
partial def carryOut (w : Surroundings) (input : String) (r : Request) (t : FileTree)
    (seen : List Location) : IO Outcome := do
  let (outcome, asked) := r.run w t input
  let fresh := ((r.places t asked).filter fun l => !seen.contains l).eraseDups
  if fresh.isEmpty then pure outcome
  else carryOut w input r (← fresh.foldlM look t) (fresh ++ seen)

/-- The present moment, and numbers that differ from run to run. -/
def surroundings : IO Surroundings := do
  let seconds := (← Std.Time.Timestamp.now).toSecondsSinceUnixEpoch.val
  let seed ← IO.rand 0 (Number.twoTo 31 - 1)
  let still := Surroundings.still
  let draw (low high : Int) : Int := low + (seed : Int) % (high - low + 1)
  pure ⟨(DateTime.ofEpoch? seconds 0).getD still.now, draw⟩

/-- Prints what a run has come to, and gives the exit code. -/
def report : Outcome → IO UInt32
  | .ended e => do
    IO.print e.output
    pure e.code.toUInt32
  | .success output => do
    IO.print output
    pure 0
  | .failed c => do
    IO.eprintln c.report
    pure 2
  | .stopped _ => do
    IO.eprintln "The program cannot go on."
    pure 1
  | .endless => do
    -- A chain without an end is walked without an end.
    while true do IO.sleep 1000
    pure 1

end Stencil.CommandLine

open Stencil Stencil.CommandLine

def main (args : List String) : IO UInt32 := do
  match Request.parse args with
  | .error e => report (.ended e)
  | .ok r =>
    let home := (Path.ofText (← IO.currentDir).toString).parts
    let input ← if r.context = some "-" then (← IO.getStdin).readToEnd else pure ""
    report (← carryOut (← surroundings) input r ⟨home, [], []⟩ [])
