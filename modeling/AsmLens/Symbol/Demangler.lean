import AsmLens.Failure
import AsmLens.Symbol.HashSuffix
import AsmLens.Target
import AsmLens.Text.Line
import AsmLens.Text.Numeral

/-!
# Demangling

Symbols are given to a demangling tool in batches, one start of the tool for a batch, and the
answers are remembered by raw name, so no name is asked for twice. The tool reads one name a line
and answers in lines; if it cannot be started, fails, or answers another number of lines, the names
stay as they are. If what it writes is no text, nothing is learnt and the call fails, and a later
call may give it the same names again. On Linux a name is cut at the first `@PLT` before it is given
to the tool, and every answer loses its hash suffix.
-/

namespace AsmLens

open Text

/-- What a start of the tool came to. -/
inductive ToolAnswer where
  /-- The tool ended with an exit code, after writing output and diagnostics. -/
  | finished (code : Int) (output diagnostics : Text)
  /-- The tool ended, but its output or its diagnostics are not UTF-8. -/
  | undecodable
  /-- The tool could not be started. -/
  | notStarted (reason : Text)
deriving DecidableEq, Repr

/-- How a tool behaves: its answer to the given input, for each start counted from 0. -/
abbrev ToolBehaviour := Nat → Text → ToolAnswer

/-- What a demangler warns about. -/
inductive DemanglerWarning where
  | noTool
  | notStarted (tool reason : Text)
  | failed (tool : Text) (code : Int) (diagnostics : Text)
deriving DecidableEq, Repr

namespace DemanglerWarning

def message : DemanglerWarning → Text
  | noTool =>
    "rustfilt not found, Rust symbols stay mangled. Install: cargo install rustfilt".toList
  | notStarted tool reason => "failed to run ".toList ++ tool ++ ": ".toList ++ reason
  | failed tool code diagnostics =>
    tool ++ " exited with ".toList ++ integer code ++ ": ".toList ++ diagnostics

end DemanglerWarning

/-- A demangler: the target, the tool's path if there is one, how the tool behaves, the names known
so far, the input of each start of the tool (`none` if it could not be started), and the warnings
given. -/
structure Demangler where
  target : Target
  tool : Option Text
  behaviour : ToolBehaviour
  known : List (Text × Text)
  starts : List (Option Text)
  warnings : List DemanglerWarning

namespace Demangler

def new (target : Target) (tool : Option Text) (behaviour : ToolBehaviour) : Demangler :=
  ⟨target, tool, behaviour, [], [], []⟩

/-- The path of the tool, which an empty path is none of. -/
def program? (d : Demangler) : Option Text :=
  d.tool.filter fun p => !p.isEmpty

/-- A name as it is given to the tool. -/
def prepare (t : Target) (name : Text) : Text :=
  if t.isLinux then before "@PLT".toList name else name

/-- The input of a start of the tool: one name a line. -/
def toolInput (names : List Text) : Text :=
  join ['\n'] names ++ ['\n']

/-- The answers to prepared names, and the demangler after asking for them. An output that is no
text is not mended, whatever the exit code. -/
def ask (d : Demangler) (names : List Text) : Except Failure (List Text) × Demangler :=
  match d.program? with
  | none =>
    (.ok names, if d.warnings.contains .noTool then d
      else { d with warnings := d.warnings ++ [.noTool] })
  | some tool =>
    match d.behaviour d.starts.length (toolInput names) with
    | .notStarted reason =>
      (.ok names, { d with starts := d.starts ++ [none],
                           warnings := d.warnings ++ [.notStarted tool reason] })
    | .undecodable =>
      (.error .notText, { d with starts := d.starts ++ [some (toolInput names)] })
    | .finished code output diagnostics =>
      let d := { d with starts := d.starts ++ [some (toolInput names)] }
      if code ≠ 0 then
        (.ok names, { d with warnings := d.warnings ++ [.failed tool code (trim diagnostics)] })
      else
        let answers := outputLines output
        (.ok (if answers.length = names.length then answers else names), d)

/-- The names of a batch that are not known yet, each once. -/
def pending (d : Demangler) (names : List Text) : List Text :=
  names.eraseDups.filter fun n => (d.known.lookup n).isNone

/-- Learns a batch: afterwards the demangler knows every name of it, or asking has failed. -/
def learn (d : Demangler) (names : List Text) : Except Failure Unit × Demangler :=
  match d.pending names with
  | [] => (.ok (), d)
  | new =>
    match d.ask (new.map (prepare d.target)) with
    | (.error e, d) => (.error e, d)
    | (.ok answers, d) =>
      (.ok (), { d with known := d.known ++ new.zip (answers.map Symbol.stripHash) })

/-- The name of a symbol that is known; a symbol that is not keeps its own. -/
def name (d : Demangler) (symbol : Text) : Text :=
  (d.known.lookup symbol).getD symbol

/-- The names of a batch, and the demangler after it. -/
def demangle (d : Demangler) (symbols : List Text) : Except Failure (List Text) × Demangler :=
  match d.learn symbols with
  | (.error e, d) => (.error e, d)
  | (.ok _, d) => (.ok (symbols.map d.name), d)

end Demangler

end AsmLens
