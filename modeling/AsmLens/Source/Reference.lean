import AsmLens.Assembly.Statement

/-!
# Referenced lines

The source lines that a function's locations refer to, file by file in the order of the first
reference. Short gaps between two lines of a file are filled, so that a stretch of code that no
location refers to still shows up between its neighbours.
-/

namespace AsmLens.Source

/-- The locations that a function refers to, in order. -/
def referencedLocs (f : Function) : List Loc :=
  f.statements.filterMap Statement.reference?

/-- The referenced files, each with the lines referred to. -/
def references (f : Function) : List (Int × List Int) :=
  let ls := referencedLocs f
  (ls.map Loc.file).eraseDups.map fun i => (i, (ls.filter (·.file == i)).map Loc.line)

def between (a b : Int) : List Int :=
  (List.range (b - a - 1).toNat).map fun (k : Nat) => a + 1 + (k : Int)

/-- Fills the gaps between neighbours that are less than `limit` apart. Line 0 is no line and
begins no gap. -/
def fillBetween (limit : Int) : List Int → List Int
  | a :: b :: ls =>
    if a ≠ 0 ∧ b - a < limit then a :: between a b ++ fillBetween limit (b :: ls)
    else a :: fillBetween limit (b :: ls)
  | ls => ls

/-- Line numbers in rising order, each once, with the short gaps filled. -/
def fillGaps (limit : Int) (ls : List Int) : List Int :=
  fillBetween limit (ls.eraseDups.mergeSort fun a b => decide (a ≤ b))

end AsmLens.Source
