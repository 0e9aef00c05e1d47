import AsmLens.Failure
import AsmLens.Path.Normal
import AsmLens.Text.Line
import AsmLens.Text.Utf8

/-!
# Files

The files a run can see, as a snapshot. A place is the list of names from the root down; a path
leads to a place by way of the working directory, and at a link the place it points to counts.
Everything above a file, a link, a known directory or the working directory is a directory.

Looking up a path and opening it differ in small ways: a file is not found under its path with a
slash at the end, and opening it that way has a failure of its own.

The snapshot is simpler than a machine. A `..` in a path takes back the part before it in the text,
whether or not that part is there or is a directory. Every file that is there can be read, and no
name or path is too long. A link is listed with the file it leads to in the end, over all links on
the way, so following it once is enough; it leads to a file, and none of the parts above it is a
link.
-/

namespace AsmLens

open Text

/-- The names that lead from the root to a file or a directory. -/
abbrev Place := List Text

namespace Place

def toText (p : Place) : Text :=
  '/' :: join ['/'] p

def le : Place → Place → Bool
  | [], _ => true
  | _ :: _, [] => false
  | a :: p, b :: q => if a = b then le p q else Text.le a b

end Place

/-- What stands at a place. -/
inductive Entry where
  | file (content : List UInt8)
  | directory
deriving DecidableEq, Repr

/-- The working directory, the files, the known directories, and the links, each with the file that
it leads to in the end. -/
structure FileSystem where
  cwd : Text
  files : List (Place × List UInt8)
  directories : List Place
  links : List (Place × Place)
deriving Repr

namespace FileSystem

variable (fs : FileSystem)

/-- The place a path leads to, before links. -/
def place (path : Text) : Place :=
  Path.collapse true (Path.Normal.ofText (Path.joinRooted fs.cwd path)).parts

/-- Where a link at a place leads to in the end; any other place is itself. -/
def follow (p : Place) : Place :=
  (fs.links.lookup p).getD p

/-- The place a path leads to, links included. -/
def resolve (path : Text) : Place :=
  fs.follow (fs.place path)

/-- A place above which or at which something is known. -/
def isDirectory (p : Place) : Bool :=
  let above (q : Place) : Bool := p.isPrefixOf q && decide (p.length < q.length)
  p.isEmpty || p.isPrefixOf (fs.place fs.cwd) || fs.directories.any (p.isPrefixOf ·)
    || fs.files.any (above ·.1) || fs.links.any (above ·.1)

/-- What stands at a place. -/
def entry? (p : Place) : Option Entry :=
  match fs.files.lookup p with
  | some content => some (.file content)
  | none => if fs.isDirectory p then some .directory else none

/-- A path that says it is a directory's: it ends in a slash, or in a slash and a full stop. -/
def saysDirectory (path : Text) : Bool :=
  endsWith ['/'] path || endsWith ['/', '.'] path

/-- A path that leads nowhere: the empty one, or one with a NUL. -/
def leadsNowhere (path : Text) : Bool :=
  path.isEmpty || path.contains '\x00'

/-- What a path finds. -/
def find? (path : Text) : Option Entry :=
  if leadsNowhere path then none
  else match fs.entry? (fs.resolve path) with
    | some (.file content) => if saysDirectory path then none else some (.file content)
    | found => found

/-- The path finds something. -/
def finds (path : Text) : Bool :=
  (fs.find? path).isSome

/-- The path finds something once it is in normal form, which the empty path is not: it stands for
the working directory. -/
def findsNormal (path : Text) : Bool :=
  fs.finds (Path.Normal.ofText path).toText

def findsDirectory (path : Text) : Bool :=
  match fs.find? path with
  | some .directory => true
  | _ => false

def read (path : Text) : Except Failure (List UInt8) :=
  if leadsNowhere path then .error (.cannotOpen .notFound)
  else match fs.entry? (fs.resolve path) with
    | none => .error (.cannotOpen .notFound)
    | some .directory => .error (.cannotOpen .isDirectory)
    | some (.file content) =>
      if saysDirectory path then .error (.cannotOpen .notDirectory) else .ok content

/-- The text of a file. Malformed bytes are replaced, and every line ends in a line feed. -/
def readText (path : Text) : Except Failure Text :=
  (fs.read path).map fun content => unifyNewlines (decodeLossy content)

/-- The text of a file that has to be well formed. -/
def readStrict (path : Text) : Except Failure Text := do
  match decode? (← fs.read path) with
  | some text => return unifyNewlines text
  | none => throw .notText

/-- The files after a file got new content. -/
def put (p : Place) (content : List UInt8) : FileSystem :=
  { fs with files := (p, content) :: fs.files.filter (·.1 != p) }

/-- Where a file can be written. -/
def writable (path : Text) : Except Failure Place :=
  if leadsNowhere path then .error (.cannotOpen .notFound)
  else
    let p := fs.resolve path
    match fs.entry? p with
    | some .directory => .error (.cannotOpen .isDirectory)
    | _ =>
      if !fs.isDirectory p.dropLast then .error (.cannotOpen .notFound)
      else if saysDirectory path then .error (.cannotOpen .notDirectory)
      else .ok p

/-- The files after a text was written. -/
def write (path text : Text) : Except Failure FileSystem :=
  (fs.writable path).map fun p => fs.put p (encode text)

/-- Something stands at a place that is no directory. -/
def obstructs (p : Place) : Bool :=
  (fs.files.lookup (fs.follow p)).isSome
    || (fs.links.lookup p).isSome && !fs.isDirectory (fs.follow p)

/-- Makes a directory and all above it: what came of it, and the files after it. A directory that is
there is left as it is. -/
def makeDirectory (path : Text) : Except Failure Unit × FileSystem :=
  let p := fs.place path
  if (List.range p.length).any fun n => fs.obstructs (p.take n) then
    (.error (.cannotOpen .notDirectory), fs)
  else if fs.obstructs p then (.error (.cannotOpen .alreadyExists), fs)
  else (.ok (), { fs with directories := p :: fs.directories })

/-- The places of the files and links below a directory. -/
def below (path : Text) : List Place :=
  if fs.findsDirectory path then
    (fs.files.map Prod.fst ++ fs.links.map Prod.fst).filter fun q =>
      (fs.place path).isPrefixOf q && decide ((fs.place path).length < q.length)
  else []

end FileSystem

end AsmLens
