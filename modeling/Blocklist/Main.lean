import Blocklist.Program
import Std.Time

/-!
# The command line

Runs the program on the words of a command line. The run itself is settled by `Blocklist.run`; here
the clock is read, lines are printed and files are written. Pages are out of reach of this
executable, which has no network: a run that asks for one tells so, as it would of any other page
that cannot be reached.
-/

open Blocklist

/-- The time by the clock of the machine, which is taken for universal time. -/
def machineClock : IO Moment := do
  let now ← Std.Time.Timestamp.now
  let t := (Std.Time.DateTime.ofTimestampWithZone now .UTC).toPlainDateTime
  pure
    { year := Int.toNat t.year
      month := t.month.toNat
      day := t.day.toNat
      hour := t.hour.toNat
      minute := t.minute.toNat
      second := t.second.toNat
      micro := t.nanosecond.toNat / 1000 }

/-- The directory in which the program runs, and those above it. -/
def machinePlace : IO Place := do
  let here := (Path.ofString (← IO.currentDir).toString).names
  let above := (List.range here.length).map fun n => (here.take (n + 1), Entry.directory)
  pure { tree := ⟨above⟩, here }

/-- Lays down what a run has left behind. -/
def writeOut (left : Place) : IO Unit :=
  for (names, entry) in left.tree.entries.reverse do
    let path := "/" ++ "/".intercalate names
    match entry with
    | .directory => IO.FS.createDirAll path
    | .file content => IO.FS.writeBinFile path content

/-- The program. Its number, which no other run at that place has, is when it began. -/
def main (words : List String) : IO UInt32 := do
  let begun ← IO.monoMsNow
  let clock ← machineClock
  let place ← machinePlace
  let elapsed := (← IO.monoMsNow) - begun
  let done := run ⟨⟨[], place⟩, clock, begun, elapsed⟩ registry words
  IO.print done.console.standard
  IO.eprint done.console.errors
  writeOut done.place
  match done.ending with
  | .returned code | .exited code => pure code.toUInt32
  | .brokenOff v => IO.eprintln v.message; pure 1
  | .cancelled => pure 1
