import AsmLens.Text.Numeral
import AsmLens.Text.Search

/-!
# Failures

Everything that can stop a run, by cause. The reported failures are those a user can act on: their
message is shown and the run ends with exit code 1. The others end the run without a report, and
an interrupt ends it with the exit code that stands for one.
-/

namespace AsmLens

open Text

/-- Why a question to the toolchain stayed without an answer. -/
inductive ToolchainProblem where
  /-- There is no build tool. -/
  | noCargo
  /-- The build tool could not be started to describe the package. -/
  | metadataNotStarted (reason : Text)
  /-- Describing the package failed. -/
  | metadataFailed (diagnostics : Text)
  /-- The description of the package does not name a target directory. -/
  | metadataUnreadable (detail : Text)
  /-- The compiler could not be started. -/
  | sysrootNotStarted (compiler reason : Text)
  /-- The compiler did not tell its sysroot. -/
  | sysrootFailed (compiler diagnostics : Text)
deriving DecidableEq, Repr

/-- Why a file could not be opened or a directory not be made. -/
inductive OpenProblem where
  | notFound
  | isDirectory
  | notDirectory
  /-- Where a directory is to be made, something else stands. -/
  | alreadyExists
deriving DecidableEq, Repr

/-- What stopped a run. -/
inductive Failure where
  /-- The build ended with an exit code other than 0. -/
  | build (code : Int) (output diagnostics : Text)
  /-- The build left no file of the kind looked for. -/
  | noOutputFiles (suffix directory : Text)
  | toolchain (problem : ToolchainProblem)
  /-- A line of a body is no statement. -/
  | unparsed (function : Text) (offset : Nat) (line : Text)
  /-- The first location of a body lies in another file than the one adopted before it. -/
  | locationMismatch (function : Text) (offset : Nat) (line : Text) (file : Int)
  /-- One index was declared for two paths. -/
  | conflictingFile (index : Int) (first second : Text)
  /-- Locations of a function refer to indices that no file was declared for. -/
  | incompleteTable (function : Text) (missing known : List Int)
  /-- A source file does not have a line that a location refers to. -/
  | missingLine (path : Text) (line : Int)
  /-- What has to be a number is none, or has too many digits. -/
  | notNumber
  /-- What has to be a whole number is infinite. -/
  | notFinite
  /-- A setting is of a kind that cannot be used. -/
  | wrongKind
  /-- What is read or written as JSON is nested too deeply. -/
  | tooDeep
  /-- What has to be text, in a file or written by a program, is not UTF-8. -/
  | notText
  | cannotOpen (problem : OpenProblem)
  /-- A program could not be started. -/
  | notStarted
  /-- The user interrupted a program. -/
  | interrupted
deriving DecidableEq, Repr

/-- A list of numbers as messages show it. -/
def numberList (ns : List Int) : Text :=
  '[' :: join ", ".toList (ns.map integer) ++ [']']

namespace ToolchainProblem

def message : ToolchainProblem → Text
  | noCargo => "cargo not found. Install via https://rustup.rs/".toList
  | metadataNotStarted reason => "failed to run cargo metadata: ".toList ++ reason
  | metadataFailed diagnostics => "cargo metadata failed: ".toList ++ diagnostics
  | metadataUnreadable detail =>
    "cannot read target directory from cargo metadata: ".toList ++ detail
  | sysrootNotStarted compiler reason =>
    "failed to run ".toList ++ compiler ++ " --print sysroot: ".toList ++ reason
  | sysrootFailed compiler diagnostics =>
    compiler ++ " --print sysroot failed: ".toList ++ diagnostics

end ToolchainProblem

namespace Failure

/-- The place in a body that a failure is about. -/
def place (function : Text) (offset : Nat) (line : Text) : Text :=
  ": ".toList ++ function ++ "\n  line off: ".toList ++ natural offset ++ '\n' :: line

def paragraph (heading text : Text) : Text :=
  if text.isEmpty then [] else "\n\n".toList ++ heading ++ "\n\n".toList ++ text

/-- The message of a reported failure; `none` for the others. -/
def message? : Failure → Option Text
  | build code output diagnostics => some <|
    "cargo build failed with exit code ".toList ++ integer code
      ++ paragraph "Build errors:".toList diagnostics ++ paragraph "Build output:".toList output
  | noOutputFiles suffix directory => some <|
    "no ".toList ++ suffix ++ " files found in ".toList ++ directory
      ++ ". Did the build emit any? Try `cargo clean` and build again.".toList
  | toolchain problem => some problem.message
  | unparsed function offset line => some <|
    "cannot parse function".toList ++ place function offset line
  | locationMismatch function offset line file => some <|
    "location does not match function file ".toList ++ integer file ++ place function offset line
  | conflictingFile index first second => some <|
    "file directive ".toList ++ integer index ++ " declared with two different paths: '".toList
      ++ first ++ "' and '".toList ++ second ++ ['\'']
  | incompleteTable function missing known => some <|
    "incomplete file table for '".toList ++ function
      ++ "': no .file directive found for file indices ".toList
      ++ numberList (missing.eraseDups.mergeSort (· ≤ ·)) ++ " (known: ".toList
      ++ numberList (known.mergeSort (· ≤ ·)) ++ [')']
  | missingLine path line => some <|
    "could not read line ".toList ++ integer line ++ " of file ".toList ++ path
      ++ " (is the build stale or the source tree different?)".toList
  | notNumber | notFinite | wrongKind | tooDeep | notText | cannotOpen _ | notStarted
  | interrupted => none

end Failure

end AsmLens
