import AsmLens.Path.Components
import AsmLens.Text.LowerTable

/-!
# Absolute paths and joining

Two conventions. With slashes alone, a path is absolute if it begins with a slash. With drives, a
path begins with a drive (a letter and a colon, or a server and a share after two separators),
which may be missing; it is absolute if it begins with a separator, or has one after a colon in
second place.
-/

namespace AsmLens.Path

open Text

/-- Absolute where slashes separate. -/
def isRooted (p : Text) : Bool :=
  p.head? == some '/'

/-- Absolute where drives are known. -/
def isDriveRooted (p : Text) : Bool :=
  match p with
  | c :: ':' :: d :: _ => isSeparator c || isSeparator d
  | c :: _ => isSeparator c
  | [] => false

/-- Absolute under either convention. -/
def isAbsolute (p : Text) : Bool :=
  isRooted p || isDriveRooted p

/-- Joining where slashes separate: a rooted second path replaces the first. -/
def joinRooted (a b : Text) : Text :=
  if isRooted b then b
  else if a.isEmpty || a.getLast? == some '/' then a ++ b
  else a ++ '/' :: b

/-- How many characters of a path with backslashes alone the drive takes that begins with two of
them: the text up to the second backslash after the start, or all of it. -/
def shareLength (q : Text) : Nat :=
  let start := if (q.take 8).map Char.toUpper = "\\\\?\\UNC\\".toList then 8 else 2
  let isName (c : Char) : Bool := c != '\\'
  match (q.drop start).dropWhile isName with
  | [] => q.length
  | _ :: r => if r.all isName then q.length
      else q.length - (r.dropWhile isName).length

def splitDrive (p : Text) : Text × Text :=
  match p.map fun c => if c = '/' then '\\' else c with
  | '\\' :: '\\' :: q => let n := shareLength ('\\' :: '\\' :: q); (p.take n, p.drop n)
  | _ :: ':' :: _ => (p.take 2, p.drop 2)
  | _ => ([], p)

/-- A drive and a path as one text: a backslash parts them if neither does. -/
def withDrive (drive path : Text) : Text :=
  if !path.isEmpty && !(path.head?.any isSeparator) && !drive.isEmpty
      && drive.getLast? != some ':' then
    drive ++ '\\' :: path
  else drive ++ path

/-- Joining where drives are known: a rooted second path replaces the path, another drive replaces
all, and the same drive is kept in its second spelling. -/
def joinDriven (a b : Text) : Text :=
  let (da, pa) := splitDrive a
  let (db, pb) := splitDrive b
  if pb.head?.any isSeparator then
    withDrive (if !db.isEmpty || da.isEmpty then db else da) pb
  else if !db.isEmpty && lower db != lower da then withDrive db pb
  else
    let sep : Text := if pa.isEmpty || pa.getLast?.any isSeparator then [] else ['\\']
    withDrive (if db.isEmpty then da else db) (pa ++ sep ++ pb)

/-- The path of a name that debug information gives below a directory. An absolute name stands for
itself; a directory written with backslashes alone is joined as one with drives. -/
def joinDebug (directory name : Text) : Text :=
  if isAbsolute name then name
  else if directory.contains '\\' && !directory.contains '/' then joinDriven directory name
  else joinRooted directory name

end AsmLens.Path
