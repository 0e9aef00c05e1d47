import AsmLens.Assembly.Classifier

/-!
# Reading a body

The lines between a function's label and its end, read one by one. A line gives its comment first
and then the statement of its node part, so a comment precedes the statement it trails.

A body may mix the function's own files and locations with those of inlined code. The function's
location is the first one set. Its file is one declared before that location, or else the first
declared later whose index that location names. A first location in another file than the one
adopted before it is an error.
-/

namespace AsmLens

open Text

namespace Body

/-- What reading has found out so far: the function's file and location, and the location in
force. -/
structure Progress where
  file : Option FileEntry
  loc : Option Loc
  current : Option Loc
deriving DecidableEq, Repr

/-- Before the first line nothing is known. -/
def Progress.start : Progress :=
  ⟨none, none, none⟩

/-- The function's file, if the declaration of `f` settles it. -/
def Progress.adopt (p : Progress) (f : FileEntry) : Progress :=
  if p.file.isNone && p.loc.all (·.file == f.index) then { p with file := some f } else p

/-- The progress after a location, unless it is the first and lies in another file than the one
adopted; then that file's index. -/
def Progress.locate (p : Progress) (l : Loc) : Except Int Progress :=
  match p.loc, p.file with
  | some _, _ => .ok { p with current := some l }
  | none, none => .ok { p with loc := some l, current := some l }
  | none, some f =>
    if f.index = l.file then .ok { p with loc := some l, current := some l } else .error f.index

section

variable (t : Target) (id : Text) (rename : Text → Text)

/-- The statement of a node part that is not empty. -/
def readNode (p : Progress) (offset : Nat) (line node : Text) :
    Except Failure (Progress × Statement) := do
  match ← Fragment.statement? t node p.current rename with
  | some (.file f) => return (p.adopt f, .file f)
  | some (.loc l) =>
    match p.locate l with
    | .ok p' => return (p', .loc l)
    | .error index => throw (.locationMismatch id offset line index)
  | some s => return (p, s)
  | none => throw (.unparsed id offset line)

def readLine (p : Progress) (offset : Nat) (raw : Text) :
    Except Failure (Progress × List Statement) := do
  let line := trim raw
  let parts := Fragments.ofLine t.commentMarkers line
  let comments := (Fragment.comment? t parts.comment).toList
  if parts.node.isEmpty then return (p, comments)
  else
    let (p, s) ← readNode t id rename p offset line parts.node
    return (p, comments ++ [s])

/-- The statements of the lines from `offset` on. -/
def readLines (p : Progress) (offset : Nat) : List Text →
    Except Failure (Progress × List Statement)
  | [] => return (p, [])
  | raw :: rest => do
    let (p, ss) ← readLine t id rename p offset raw
    let (p, more) ← readLines p (offset + 1) rest
    return (p, ss ++ more)

/-- The function called `id` with the given body. Targets of calls are renamed. -/
def read (lines : List Text) : Except Failure Function := do
  let (p, ss) ← readLines t id rename .start 0 lines
  return ⟨id, p.file, p.loc, ss⟩

/-- The targets of the calls in a body, as written. -/
def callTargets (lines : List Text) : List Text :=
  lines.filterMap fun l => Fragment.callTarget? t (Fragments.ofLine t.commentMarkers (trim l)).node

end

end Body

end AsmLens
