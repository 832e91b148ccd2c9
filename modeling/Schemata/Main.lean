import Schemata.CommandLine.Run
import Schemata.Dialect.Environment
import Std.Time.Format

/-!
# The program

Gathers the settings, the inputs and the stamp of the moment, and carries out the command line.
-/
namespace Schemata

/-- The variables that settings are read from. -/
def readEnvironment : IO Environment :=
  [Settings.dialectVariable, Settings.strictVariable].filterMapM fun name => do
    return (← IO.getEnv name).map (name, ·)

/-- Everything on the standard input. -/
partial def readAll (stream : IO.FS.Stream) (before : ByteArray) : IO ByteArray := do
  let bytes ← stream.read 65536
  if bytes.isEmpty then return before else readAll stream (before ++ bytes)

def readFile? (name : String) : IO (Option ByteArray) :=
  try return some (← IO.FS.readBinFile name) catch _ => return none

/-- The inputs that a command line names. -/
def readInputs (arguments : List String) : IO CommandLine.Inputs := do
  let names := match CommandLine.Command.ofLine arguments with
    | .ok command => command.inputs
    | .error _ => []
  let standard ←
    if CommandLine.standardInput ∈ names then readAll (← IO.getStdin) .empty else pure .empty
  let files ← (names.filter (· ≠ CommandLine.standardInput)).mapM fun name => do
    return (name, ← readFile? name)
  return ⟨standard, fun name => (files.lookup name).join⟩

/-- A stamp of the moment with a random number. The date is the part of the time before its `T`. -/
def makeStamp : IO CommandLine.Stamp := do
  let time := (Std.Time.DateTime.ofTimestamp (← Std.Time.Timestamp.now) .UTC).toISO8601String
  let number ← IO.rand 0 0xFFFFFFFFFFFF
  let date := String.ofList (time.toList.takeWhile (· ≠ 'T'))
  return ⟨String.ofList (Text.hexDigits 12 number), time, date⟩

end Schemata

open Schemata in
def main (arguments : List String) : IO UInt32 := do
  let settings := Settings.ofEnvironment (← readEnvironment)
  let outcome := CommandLine.run settings (← makeStamp) (← readInputs arguments) arguments
  IO.print outcome.output
  IO.eprint outcome.complaint
  return outcome.code.toUInt32
