import AsmLens.Text.Search

/-!
# Components of a path

Paths in debug information come from the machine that built the code, which may be of another kind
than this one, so they stay plain text and both separators count. A path's components are the
non-empty pieces between separators; one path contains another if its components hold those of the
other as a run.
-/

namespace AsmLens.Path

open Text

def isSeparator (c : Char) : Bool :=
  c == '/' || c == '\\'

/-- The non-empty pieces between separators. -/
def components (p : Text) : List Text :=
  (p.splitOnP isSeparator).filter fun c => !c.isEmpty

/-- The separator a path is written with: the backslash if it has one and no slash. -/
def separator (p : Text) : Char :=
  if p.contains '\\' && !p.contains '/' then '\\' else '/'

/-- What follows the first run equal to `run`. -/
def afterRun? (run : List Text) : List Text → Option (List Text)
  | [] => if run.isEmpty then some [] else none
  | c :: cs =>
    if run.isPrefixOf (c :: cs) then some ((c :: cs).drop run.length) else afterRun? run cs

/-- The components of `sub` stand in `p`, one right after another. -/
def contains (p sub : Text) : Bool :=
  (afterRun? (components sub) (components p)).isSome

/-- The part of `p` that follows `sub`. -/
def after? (p sub : Text) : Option Text :=
  (afterRun? (components sub) (components p)).map (join [separator p])

end AsmLens.Path
