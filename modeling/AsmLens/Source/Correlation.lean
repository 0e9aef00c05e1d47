import AsmLens.Assembly.FileTable
import AsmLens.Journal
import AsmLens.Path.Absolute
import AsmLens.Source.LibraryPath
import AsmLens.Source.Reference

/-!
# Correlating with the sources

The source lines that a function refers to are read from their files. A relative path is tried
below a base directory first. A path that is not there and leads into the standard library is moved
below the sysroot, which is asked for once and only if some path needs it. Files that are still not
there are reported as missing and dropped; a file that is there must have every line that the
function refers to.
-/

namespace AsmLens

open Text

/-- A source file and the lines wanted from it, with their text once it is read. -/
structure Excerpt where
  file : FileEntry
  lines : List (Int × Option Text)
deriving DecidableEq, Repr

/-- Excerpts by the index that locations name. -/
abbrev Sources := List (Int × Excerpt)

namespace Sources

/-- The text of the line that a location lies in. -/
def line? (s : Sources) (l : Loc) : Option Text := do
  let e ← s.lookup l.file
  let text ← e.lines.lookup l.line
  text

/-- The path of the file that a location lies in. -/
def path? (s : Sources) (l : Loc) : Option Text :=
  (s.lookup l.file).map fun e => e.file.path

end Sources

/-- What correlating comes to: the lines read, and the paths that were not there. -/
structure Correlation where
  sources : Sources
  missing : List Text
deriving DecidableEq, Repr

namespace Correlation

def isComplete (c : Correlation) : Bool :=
  c.missing.isEmpty

def move (e : Excerpt) (path : Text) : Excerpt :=
  { e with file := { e.file with path } }

/-- The excerpts that a function asks for, not read yet. -/
def wanted (limit : Int) (f : Function) (table : FileTable) : Except Failure Sources :=
  (Source.references f).mapM fun (index, ls) =>
    match table.get? index with
    | some file => .ok (index, ⟨file, (Source.fillGaps limit ls).map fun l => (l, none)⟩)
    | none => .error (.incompleteTable f.id [index] table.indices)

section

variable (fs : FileSystem)

/-- A relative path below the base directory, if it is there. -/
def resolve (base : Option Text) (path : Text) : Text :=
  match base with
  | none => path
  | some b =>
    if !Path.isAbsolute path && fs.finds (Path.joinRooted b path) then Path.joinRooted b path
    else path

/-- The tail of a path that is not there and leads into the standard library. -/
def displaced? (path : Text) : Option (List Text) :=
  if fs.finds path then none else Source.libraryTail? path

/-- A path of the standard library moved below the sysroot. -/
def correct (sysroot path : Text) : Text :=
  match displaced? fs path with
  | some tail => (Source.libraryDirectory ++ tail).foldl Path.joinRooted sysroot
  | none => path

/-- Some path needs the sysroot. -/
def needsSysroot (s : Sources) : Bool :=
  s.any fun e => (displaced? fs e.2.file.path).isSome

def resolveAll (base : Option Text) (s : Sources) : Sources :=
  s.map fun (i, e) => (i, move e (resolve fs base e.file.path))

def correctAll (sysroot : Text) (s : Sources) : Sources :=
  s.map fun (i, e) => (i, move e (correct fs sysroot e.file.path))

def isPresent (e : Excerpt) : Bool :=
  fs.findsNormal e.file.path

/-- The wanted lines once the text of one of them is known. -/
def noteLine (number : Int) (text : Text) (wanted : List (Int × Option Text)) :
    List (Int × Option Text) :=
  wanted.map fun (l, known) => (l, if l = number then some text else known)

/-- Goes through the lines of a file from `number` on and notes the wanted ones, up to the last of
`total`; `noted` of them are before. -/
def noteLines (total : Nat) : Nat → Int → List (Int × Option Text) → List Text →
    List (Int × Option Text)
  | _, _, wanted, [] => wanted
  | noted, number, wanted, l :: ls =>
    if wanted.any (·.1 == number) then
      let wanted := noteLine number (trim l) wanted
      if noted + 1 = total then wanted else noteLines total (noted + 1) (number + 1) wanted ls
    else noteLines total noted (number + 1) wanted ls

/-- Reads an excerpt. Line 0 is no line, and nothing is missing there. -/
def load (e : Excerpt) : Except Failure Excerpt := do
  let ls := lines (← fs.readText e.file.path)
  let read := noteLines (e.lines.countP (·.1 != 0)) 0 1 e.lines ls
  match read.find? fun (l, text) => l != 0 && text.isNone with
  | some (l, _) => throw (.missingLine e.file.path l)
  | none => return { e with lines := read }

/-- The excerpts with corrected paths. The sysroot is asked for only if some path needs it. -/
def corrected (sysroot : Action Text) (s : Sources) : Action Sources :=
  if needsSysroot fs s then do return correctAll fs (← sysroot) s
  else return s

/-- Reads the excerpts that are there; the others are missing. -/
def readAll (s : Sources) : Action Correlation := do
  let missing := (s.filter fun e => !isPresent fs e.2).map fun e => e.2.file.path
  unless missing.isEmpty do Action.warn (.missingSources missing)
  let sources ← Action.ofExcept <|
    (s.filter fun e => isPresent fs e.2).mapM fun (i, e) => (load fs e).map fun e => (i, e)
  return ⟨sources, missing⟩

/-- Loads the source lines that a function refers to. -/
def ofFunction (sysroot : Action Text) (limit : Int) (base : Option Text) (f : Function)
    (table : FileTable) : Action Correlation := do
  let asked ← Action.ofExcept (wanted limit f table)
  readAll fs (← corrected fs sysroot (resolveAll fs base asked))

end

end Correlation

end AsmLens
