import AsmLens.Assembly.Body
import AsmLens.Assembly.FileTable
import AsmLens.Symbol.Demangler

/-!
# Locating a function

A file of assembly is scanned for the function label that demangles to the path asked for. The
lines from there to the end marker are the body. The file table holds what was declared before the
label and in the body, and, if the function's location names a file that is not declared by then,
what is declared up to the line that declares it.

`scanWith` does this for any naming of symbols. `scan` does it with a demangler: the labels of the
file are one batch and the calls of the body another, after which every name that the scan asks for
is known; it fails if asking for them does. `locate` goes through several files and stops at the
first that has the function; otherwise it lists the functions of all.
-/

namespace AsmLens

open Text

/-- A located function and a file table that covers its locations. -/
structure Found where
  function : Function
  table : FileTable
deriving DecidableEq, Repr

/-- What looking for a function comes to: the function, or the sorted names of all functions. -/
inductive Located (α : Type) where
  | found (result : α)
  | notFound (names : List Text)
deriving DecidableEq, Repr

/-- What one file has to say: the function, or the names of the functions it has instead. -/
inductive Scanned (α : Type) where
  | found (result : α)
  | absent (names : List Text)
deriving DecidableEq, Repr

/-- Goes through texts in order with a scan that may learn on the way, up to the first that has
what is looked for. -/
def searchFiles {α : Type} (scan : Demangler → Text → Except Failure (Scanned α) × Demangler) :
    Demangler → List Text → List (Except Failure Text) →
      Except Failure (Located α) × Demangler
  | d, seen, [] => (.ok (.notFound (sortDedup seen)), d)
  | d, _, .error e :: _ => (.error e, d)
  | d, seen, .ok text :: rest =>
    match scan d text with
    | (.error e, d) => (.error e, d)
    | (.ok (.found r), d) => (.ok (.found r), d)
    | (.ok (.absent names), d) => searchFiles scan d (seen ++ names) rest

namespace Locator

section

variable (t : Target)

/-- The lines of a file of assembly, trimmed. -/
def fileLines (text : Text) : List Text :=
  (lines text).map trim

/-- The symbol of a function label. -/
def functionLabel? (line : Text) : Option Text :=
  if startsWith t.labelPrefix line then
    Fragment.labelName? t (Fragments.ofLine t.commentMarkers line).node
  else none

/-- The table after a line, which may declare a file. -/
def declareLine (table : FileTable) (line : Text) : Except Failure FileTable := do
  match ← Fragment.file? t (Fragments.ofLine t.commentMarkers line).node with
  | some f => table.declare f
  | none => return table

/-- What a scan for a function label has seen: the names of other functions, and, if the label is
there, the table before it and the lines after it. -/
structure Sought where
  names : List Text
  hit : Option (FileTable × List Text)
deriving DecidableEq, Repr

/-- Looks for the first function label called `path`. -/
def seek (name : Text → Text) (path : Text) : FileTable → List Text → Except Failure Sought
  | _, [] => return ⟨[], none⟩
  | table, line :: rest =>
    match functionLabel? t line with
    | some symbol =>
      if name symbol = path then return ⟨[], some (table, rest)⟩
      else do
        let s ← seek name path table rest
        return { s with names := name symbol :: s.names }
    | none => do seek name path (← declareLine t table line) rest

/-- The lines of a body, out of those after its label. -/
def bodyLines (rest : List Text) : List Text :=
  rest.takeWhile fun l => !startsWith t.endMarker l

/-- The lines from the end marker on. -/
def linesAfterBody (rest : List Text) : List Text :=
  rest.dropWhile fun l => !startsWith t.endMarker l

/-- Reads declarations until an index has a file. -/
def resolve (index : Int) : FileTable → List Text → Except Failure (FileTable × Option FileEntry)
  | table, [] => return (table, table.get? index)
  | table, line :: rest =>
    match table.get? index with
    | some f => return (table, some f)
    | none => do resolve index (← declareLine t table line) rest

/-- The file of a function that its body may leave open, and the table after looking for it. -/
def settleFile (f : Function) (table : FileTable) (after : List Text) :
    Except Failure (FileTable × Option FileEntry) :=
  match f.file, f.loc with
  | none, some l => resolve t l.file table after
  | file, _ => return (table, file)

/-- The function with the table completed by its own declarations, if that covers its
locations. -/
def coverLocations (f : Function) (table : FileTable) : Except Failure Found := do
  let table ← table.declareAll (f.file.toList ++ f.declaredFiles)
  let missing := (f.locations.map Loc.file).filter fun i => !table.indices.contains i
  if missing.isEmpty then return ⟨f, table⟩
  else throw (.incompleteTable f.id missing table.indices)

/-- The function called `path`, from the table before its label and the lines after it. -/
def complete (name : Text → Text) (path : Text) (table : FileTable) (rest : List Text) :
    Except Failure Found := do
  let f ← Body.read t path name (bodyLines t rest)
  let (table, file) ← settleFile t f table (linesAfterBody t rest)
  coverLocations { f with file } table

/-- Scans one file, with any naming of symbols. -/
def scanWith (name : Text → Text) (path : Text) (ls : List Text) :
    Except Failure (Scanned Found) := do
  let s ← seek t name path [] ls
  match s.hit with
  | none => return .absent s.names
  | some (table, rest) => return .found (← complete t name path table rest)

end

/-- Learns the two batches of a file: its labels, and the calls of the body if the function is
there. -/
def learnFile (d : Demangler) (path : Text) (ls : List Text) : Except Failure Unit × Demangler :=
  match d.learn (ls.filterMap (functionLabel? d.target)) with
  | (.error e, d) => (.error e, d)
  | (.ok _, d) =>
    match seek d.target d.name path [] ls with
    | .ok ⟨_, some (_, rest)⟩ => d.learn (Body.callTargets d.target (bodyLines d.target rest))
    | _ => (.ok (), d)

def scan (path : Text) (d : Demangler) (text : Text) :
    Except Failure (Scanned Found) × Demangler :=
  let ls := fileLines text
  match learnFile d path ls with
  | (.error e, d) => (.error e, d)
  | (.ok _, d) => (scanWith d.target d.name path ls, d)

def locate (d : Demangler) (path : Text) (files : List (Except Failure Text)) :
    Except Failure (Located Found) × Demangler :=
  searchFiles (scan path) d [] files

end Locator

end AsmLens
