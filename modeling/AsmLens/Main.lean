import AsmLens.Session
import AsmLens.Workspace.Snapshot

/-!
# The program

The words of the command line come as arguments and the workspace as a snapshot on the standard
input. The run is computed from them, and then what it wrote is written. Warnings precede its own
diagnostics.
-/

namespace AsmLens.Program

/-- The rest of a stream. -/
partial def readRest (s : IO.FS.Stream) (read : String) : IO String := do
  let line ← s.getLine
  if line.isEmpty then return read else readRest s (read ++ line)

/-- The modes with their switches, for a user who asks for help. -/
def helpText (mode : Text) : String :=
  let modes := CommandLine.Switch.modes.filter fun m => mode.isEmpty || m.1 == mode
  let line (m : Text × List CommandLine.Switch) : Text :=
    m.1 ++ " [path]".toList ++ m.2.flatMap fun s => " [".toList ++ s.title ++ [']']
  String.ofList (Text.unlines (modes.map line))

/-- Writes what a run ended with, besides its own output, and gives the exit code. -/
def conclude (out err : IO.FS.Stream) : Ending → IO UInt32
  | .exit code => return code.toNat.toUInt32
  | .noMode => do
    out.putStr (helpText [])
    return 1
  | .stopped (.help mode) => do
    out.putStr (helpText mode)
    return 0
  | .stopped (.usage problem) => do
    err.putStr (String.ofList ("error: ".toList ++ problem.message ++ ['\n']))
    return 2
  | .failed _ => do
    err.putStr "error: the run could not be finished\n"
    return 1

end AsmLens.Program

open AsmLens AsmLens.Program

/-- Runs the words of the command line in the workspace that the standard input describes. -/
def main (args : List String) : IO UInt32 := do
  let out ← IO.getStdout
  let err ← IO.getStderr
  let input := (← readRest (← IO.getStdin) "").toList
  match Json.parse Snapshot.readable input with
  | .error stop =>
    err.putStr (String.ofList ("error: ".toList ++ stop.message input ++ ['\n']))
    return 2
  | .ok snapshot =>
    let r := Session.run (Snapshot.workspace snapshot) (args.map String.toList)
    for w in r.journal.warnings do
      err.putStr (String.ofList ("WARNING ".toList ++ w.message ++ ['\n']))
    err.putStr (String.ofList r.journal.diagnostics)
    out.putStr (String.ofList r.journal.output)
    conclude out err r.ending
