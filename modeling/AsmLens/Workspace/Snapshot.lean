import AsmLens.Json.Value
import AsmLens.Workspace.Basic

/-!
# Snapshots

A workspace written down as a JSON object. `cwd` and `home` are paths. `fs` maps paths to
contents (a text, or an object with bytes in hexadecimal), `dirs` lists further directories, `links`
maps links to the files they point to. `env`, `host` and `which` give the environment, the host and
the installed programs. `runs` holds the answers to the three questions; `tool_runs` those of the
demangling tool, of which the last one is repeated, or else `names` what it makes of each name. What
a command writes is given as a content is. Every field may be missing.
-/

namespace AsmLens.Snapshot

open Text

/-- A text field, or what stands for it if it is missing. -/
def textOr (default : String) (j : Json) : Text :=
  j.str?.getD default.toList

/-- The fields of an object that hold texts. -/
def texts (j : Json) : List (Text × Text) :=
  j.fields.filterMap fun f => f.2.str?.map fun t => (f.1.toText, t)

/-- The bytes of pairs of hexadecimal digits. -/
def bytes : Text → List UInt8
  | a :: b :: s => UInt8.ofNat (digit a * 16 + digit b) :: bytes s
  | _ => []
where
  digit (c : Char) : Nat := if c.isDigit then c.toNat - 48 else c.toLower.toNat - 87

/-- The content of a file, or what a program writes. -/
def content : Json → List UInt8
  | .str s => encode s.toText
  | j => bytes (textOr "" (j.field "hex"))

def files (j : Json) : FileSystem :=
  let cwd := textOr "/work" (j.field "cwd")
  let place := (FileSystem.mk cwd [] [] []).place
  ⟨cwd, (j.field "fs").fields.map fun f => (place f.1.toText, content f.2),
    (j.field "dirs").items.filterMap fun d => d.str?.map place,
    (texts (j.field "links")).map fun l => (place l.1, place l.2)⟩

/-- How a command ended that was started: its output and its diagnostics are read as UTF-8. -/
def ending {α : Type} (finished : Int → Text → Text → α) (undecodable : α) (j : Json) : α :=
  match decode? (content (j.field "stdout")), decode? (content (j.field "stderr")) with
  | some output, some diagnostics =>
    finished ((j.field "returncode").int?.getD 0) output diagnostics
  | _, _ => undecodable

def commandAnswer (j : Json) : CommandAnswer :=
  match j.field "oserror", j.field "interrupt" with
  | .str reason, _ => .notStarted reason.toText
  | _, .bool true => .interrupted
  | _, _ => ending .finished .undecodable j

/-- What a tool prints that maps the names it is given. -/
def mapped (names : List (Text × Text)) (input : Text) : ToolAnswer :=
  .finished 0 (unlines ((lines input).map fun n => (names.lookup n).getD n)) []

def toolAnswer (j : Json) (input : Text) : ToolAnswer :=
  match j.field "oserror", j.field "map" with
  | .str reason, _ => .notStarted reason.toText
  | _, .obj names => mapped (texts (.obj names)) input
  | _, _ => ending .finished .undecodable j

def toolBehaviour (j : Json) : ToolBehaviour := fun n input =>
  let runs := (j.field "tool_runs").items
  match runs[n]?.or runs.getLast? with
  | some run => toolAnswer run input
  | none => mapped (texts (j.field "names")) input

/-- How deep JSON may be nested that is read, near the start of a program. -/
def readable : Nat := 985

def workspace (j : Json) : Workspace :=
  let host := j.field "host"
  let runs := j.field "runs"
  { files := files j
    home := textOr "/home/user" (j.field "home")
    environment := texts (j.field "env")
    host := ⟨textOr "x86_64" (host.field "machine"), textOr "Linux" (host.field "system")⟩
    programs := texts (j.field "which")
    demangling := toolBehaviour j
    answers
      | .build => commandAnswer (runs.field "build")
      | .metadata => commandAnswer (runs.field "metadata")
      | .sysroot => commandAnswer (runs.field "sysroot")
    nesting _ := readable }

end AsmLens.Snapshot
