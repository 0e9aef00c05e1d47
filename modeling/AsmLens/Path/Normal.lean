import AsmLens.Path.Absolute

/-!
# Paths of this machine

On this machine slashes separate. A `Normal` path is a root (none, one slash, or two) and the
parts below it, without empty parts and `.`; `..` is kept, because it may follow a link. `tidy`
also takes `..` away, which gives the directory and the name of a file that is opened by text.
-/

namespace AsmLens.Path

open Text

/-- A path without empty parts and `.`. -/
structure Normal where
  root : Text
  parts : List Text
deriving DecidableEq, Repr

namespace Normal

/-- The root of a path: two slashes count as such, three or more as one. -/
def rootOf (p : Text) : Text :=
  match (p.takeWhile (· == '/')).length with
  | 0 => []
  | 2 => ['/', '/']
  | _ => ['/']

def ofText (p : Text) : Normal :=
  ⟨rootOf p, (p.splitOnP (· == '/')).filter fun c => !c.isEmpty && c != ['.']⟩

/-- A path in normal form as text; the empty path is `.`. -/
def toText (n : Normal) : Text :=
  match n.root ++ join ['/'] n.parts with
  | [] => ['.']
  | t => t

/-- A path below another; an absolute one replaces it. -/
def child (n : Normal) (p : Text) : Normal :=
  let m := ofText p
  if m.root.isEmpty then ⟨n.root, n.parts ++ m.parts⟩ else m

end Normal

/-- Takes away `..` and the part before it. Above the root there is nothing; above a relative
start `..` stays. -/
def collapse (rooted : Bool) (parts : List Text) : List Text :=
  (parts.foldl (fun done c =>
    if c = ['.', '.'] then
      match done with
      | [] => if rooted then [] else [c]
      | d :: ds => if d = ['.', '.'] then c :: d :: ds else ds
    else c :: done) []).reverse

/-- A path without empty parts, `.`, and `..` where something stands before it. -/
def tidy (p : Text) : Text :=
  let n := Normal.ofText p
  (Normal.mk n.root (collapse (!n.root.isEmpty) n.parts)).toText

/-- The directory a path lies in, as text: what stands before the last slash, without the slashes
at its end unless there is nothing else. -/
def directory (p : Text) : Text :=
  let head := (p.reverse.dropWhile (· != '/')).reverse
  if head.all (· == '/') then head else (head.reverse.dropWhile (· == '/')).reverse

end AsmLens.Path
