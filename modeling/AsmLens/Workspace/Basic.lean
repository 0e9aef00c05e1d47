import AsmLens.Symbol.Demangler
import AsmLens.Workspace.FileSystem

/-!
# The workspace

All that a run can see of the machine: the files, the home directory, the environment, the host,
which programs are installed, and how these behave when they are started. A run is a function of
its command line and its workspace.
-/

namespace AsmLens

open Text

/-- The questions that a run puts to the toolchain. -/
inductive Query where
  | build
  | metadata
  | sysroot
deriving DecidableEq, Repr

/-- The JSON texts that a run reads. -/
inductive Document where
  | settings
  /-- What the build tool says of the package. -/
  | description
deriving DecidableEq, Repr

/-- What a command came to. -/
inductive CommandAnswer where
  /-- It ended with an exit code, after writing output and diagnostics. -/
  | finished (code : Int) (output diagnostics : Text)
  /-- It ended, but its output or its diagnostics are not UTF-8. -/
  | undecodable
  /-- It could not be started. -/
  | notStarted (reason : Text)
  /-- The user interrupted it. -/
  | interrupted
deriving DecidableEq, Repr

/-- A command as it is given: its words, and the compiler flags put into its environment if that is
changed for it. -/
structure Command where
  words : List Text
  compilerFlags : Option Text
deriving DecidableEq, Repr

/-- What a run can see. -/
structure Workspace where
  files : FileSystem
  home : Text
  environment : List (Text × Text)
  host : Host
  programs : List (Text × Text)
  demangling : ToolBehaviour
  answers : Query → CommandAnswer
  /-- How deep a text may be nested. What the stack has left where it is read decides. -/
  nesting : Document → Nat

namespace Workspace

variable (w : Workspace)

/-- The path of an installed program. -/
def program? (name : String) : Option Text :=
  w.programs.lookup name.toList

def environmentValue? (name : String) : Option Text :=
  w.environment.lookup name.toList

/-- The demangling tools by preference. An empty path is passed over for the next. -/
def demangler? : Option Text :=
  ((w.program? "rustfilt").filter fun p => !p.isEmpty).or (w.program? "llvm-cxxfilt")

end Workspace

end AsmLens
