import PropLogic.CommandLine.Report
import Std.Time.DateTime.Timestamp

/-!
# The command line

`main` reads the arguments, standard input and files, and prints the report of the run.
-/

open PropLogic PropLogic.CommandLine

namespace PropLogic.CommandLine

def twoDigits (n : Nat) : String := if n < 10 then s!"0{n}" else toString n

/-- The time of day after a number of seconds since midnight of some day. -/
def timeOfDay (seconds : Nat) : String :=
  let minutes := seconds / 60
  s!"{twoDigits (minutes / 60 % 24)}:{twoDigits (minutes % 60)}:{twoDigits (seconds % 60)}"

/-- The failure to read a file that an error of the system stands for. -/
def readErrorOf : IO.Error → ReadError
  | .noFileOrDirectory .. => .notFound
  | .inappropriateType _ 21 _ => .isADirectory
  | e => ⟨.other, toString e⟩

def contentOf : Source → IO (Except ReadError ByteArray)
  | .standardInput => do
      let stdin ← IO.getStdin
      return .ok (← stdin.readBinToEnd)
  | .file path => do
      try
        return .ok (← IO.FS.readBinFile path)
      catch e =>
        return .error (readErrorOf e)

/-- The report of a run, which reads only the source that it needs. -/
def perform (args : List String) : IO Report := do
  match Options.ofArguments args with
  | .error refusal => return .ofRefusal refusal
  | .ok o =>
      match o.job.source? with
      | some source => return .ofOptions o (← contentOf source)
      | none => return .ofOptions o (.ok .empty)

end PropLogic.CommandLine

def main (args : List String) : IO UInt32 := do
  let report ← perform args
  let now ← Std.Time.Timestamp.now
  let time := timeOfDay now.toSecondsSinceUnixEpoch.val.toNat
  for d in report.diagnostics do
    IO.eprint (d.text time)
  IO.print report.output
  return report.status.toUInt32
