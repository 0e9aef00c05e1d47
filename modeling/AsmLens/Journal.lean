import AsmLens.Workspace.Basic

/-!
# Journals

What a run does besides computing: the commands it gives, the starts of the demangling tool, its
warnings, and what it writes to the two streams, each in order. An `Action` is a step of a run. It
adds to the journal and may fail, and what it did before it failed stays in the journal.
-/

namespace AsmLens

open Text

/-- What a run warns about. -/
inductive Warning where
  | demangler (warning : DemanglerWarning)
  /-- Source files that are not there. -/
  | missingSources (paths : List Text)
  /-- Source lines were asked for and are left out. -/
  | sourcesHidden
  /-- The settings file cannot be used. -/
  | corruptSettings (path : Text)
  /-- The settings file holds something else than settings. -/
  | noSettings (path : Text)
deriving DecidableEq, Repr

namespace Warning

def message : Warning → Text
  | demangler w => w.message
  | missingSources paths =>
    "could not find the source files: ".toList ++ join ", ".toList paths
      ++ ". Is the rust-src component installed? (rustup component add rust-src)".toList
  | sourcesHidden => "some source files are missing, Rust lines are not shown".toList
  | corruptSettings path => "ignoring corrupt config ".toList ++ path
  | noSettings path => "ignoring ".toList ++ path ++ ": not a JSON object".toList

end Warning

/-- What a run did. -/
structure Journal where
  commands : List Command
  toolStarts : List (Option Text)
  warnings : List Warning
  output : Text
  diagnostics : Text
deriving DecidableEq, Repr

namespace Journal

def empty : Journal :=
  ⟨[], [], [], [], []⟩

end Journal

/-- A step of a run. -/
abbrev Action := ExceptT Failure (StateM Journal)

namespace Action

/-- The outcome of an action and the journal after it. -/
def outcome {α : Type} (a : Action α) (j : Journal) : Except Failure α × Journal :=
  a.run.run j

def note (c : Command) : Action Unit :=
  modify fun j => { j with commands := j.commands ++ [c] }

def warn (w : Warning) : Action Unit :=
  modify fun j => { j with warnings := j.warnings ++ [w] }

def write (t : Text) : Action Unit :=
  modify fun j => { j with output := j.output ++ t }

def report (t : Text) : Action Unit :=
  modify fun j => { j with diagnostics := j.diagnostics ++ t }

/-- Notes what a new demangler did. -/
def adopt (d : Demangler) : Action Unit :=
  modify fun j => { j with
    toolStarts := j.toolStarts ++ d.starts
    warnings := j.warnings ++ d.warnings.map .demangler }

/-- An outcome that is known. -/
def ofExcept {α : Type} : Except Failure α → Action α
  | .ok x => pure x
  | .error e => throw e

end Action

end AsmLens
