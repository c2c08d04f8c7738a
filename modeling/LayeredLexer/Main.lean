/-
The command itself. It fetches what a run depends on, which is the values
of the environment and what is found under the paths among the arguments,
and writes the lines of the outcome.
-/
import LayeredLexer.CommandLine.Run
import LayeredLexer.Files.Tree
import Std.Time.Format

namespace LayeredLexer

/-- A failure by its number, which may come negated, and its text. -/
def IoFailure.ofNumber (code : UInt32) (details : String) : IoFailure :=
  let number := min code (0 - code)
  ⟨.other, s!"{details.capitalize} (os error {number})"⟩

/-- What is known of a path that could not be read. -/
def IoFailure.ofError : IO.Error → IoFailure
  | .noFileOrDirectory .. => .missing
  | .inappropriateType _ code details | .permissionDenied _ code details
  | .invalidArgument _ code details => .ofNumber code details
  | error => ⟨.other, error.toString⟩

/-- Finds out what is under a path. -/
def fetchEntry (path : String) : IO Entry := do
  try
    return .file (.bytes (← IO.FS.readBinFile path))
  catch
    | .inappropriateType _ 21 _ => return .directory FileTree.directorySize
    | error => return .unreachable (.ofError error)

/-- The paths that arguments may lead to. -/
def fetchFiles (paths : List String) : IO Files := do
  let found ← paths.mapM fun path => do return (path, ← fetchEntry path)
  return fun path => ((found.find? (·.1 == path)).map (·.2)).getD (.unreachable .missing)

/-- The values of the variables that preferences are read from. -/
def fetchEnvironment : IO Environment := do
  let values ← Environment.preferences.mapM fun preference => do
    let name := Environment.variableName preference
    return (name, ← IO.getEnv name)
  return fun name => (values.find? (·.1 == name)).bind (·.2)

/-- The present time, in the form that logged events are stamped with. -/
def presentTime : IO String := do
  let now := Std.Time.DateTime.ofTimestamp (← Std.Time.Timestamp.now) .UTC
  return now.format "uuuu-MM-dd'T'HH:mm:ss.SSSSSSSSS" ++ "+00:00"

end LayeredLexer

open LayeredLexer in
/-- Runs the command, and ends with its exit code. -/
def main (arguments : List String) : IO UInt32 := do
  let setting : CommandLine.Setting := {
    program := "contract-lexer"
    environment := ← fetchEnvironment
    files := ← fetchFiles (CommandLine.paths arguments)
    timestamp := ← presentTime }
  let outcome := CommandLine.run setting arguments
  for line in outcome.lines do
    match line.channel with
    | .output => IO.println line.text
    | .errors => IO.eprintln line.text
  return outcome.exitCode.toUInt32
