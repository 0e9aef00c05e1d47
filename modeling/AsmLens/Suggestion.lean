import AsmLens.Text.Distance
import AsmLens.Text.Search

/-!
# Suggestions

For a path that names no function, the names whose last segment is near to that of the path. A
segment ends at a colon. Near is an edit distance of at most four, the nearest come first, and
names at the same distance keep their order.
-/

namespace AsmLens.Suggestion

open Text

/-- What follows the last colon. -/
def lastSegment (path : Text) : Text :=
  (path.reverse.takeWhile (· != ':')).reverse

def nearby : Int := 4

/-- The distance between the last segments of a name and a path. -/
def segmentDistance (path name : Text) : Nat :=
  distance (lastSegment name) (lastSegment path)

/-- The names within a distance, the nearest first. -/
def rank (names : List Text) (path : Text) (limit : Int) : List Text :=
  (names.mergeSort fun a b => decide (segmentDistance path a ≤ segmentDistance path b)).filter
    fun n => decide (segmentDistance path n ≤ limit)

/-- The report on a path that names no function. `kind` is what was looked through. -/
def report (path : Text) (names : List Text) (kind : Text) : Text :=
  let near := rank names path nearby
  "could not find function at path \"".toList ++ path ++ "\" in the generated ".toList ++ kind
    ++ ".\n".toList
    ++ (if near.isEmpty then [] else
      "Is it one of the following functions?\n\n".toList
        ++ unlinesIndented near)
    ++ "\nTips:\n  * make sure that the function is present in the final binary ".toList
    ++ "(e.g. if it's a generic function, make sure that it is actually monomorphized)\n".toList
where
  /-- One name a line, two spaces in. -/
  unlinesIndented (names : List Text) : Text :=
    names.flatMap fun n => ' ' :: ' ' :: n ++ ['\n']

end AsmLens.Suggestion
