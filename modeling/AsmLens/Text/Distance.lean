import AsmLens.Text.Blank

/-!
# Edit distance

The least number of insertions, deletions and replacements of single characters that turn one text
into another. `distances a b` holds the distance from `a` to every tail of `b`, longest tail first;
a character more in front of `a` gives the next such row.
-/

namespace AsmLens.Text

/-- From the distances between `a` and every tail of `b` to those between `x :: a` and them. -/
def nextDistances (x : Char) : Text → List Nat → List Nat
  | y :: b, d :: ds =>
    let rest := nextDistances x b ds
    min (min (d + 1) (rest.headD 0 + 1)) (ds.headD 0 + if x = y then 0 else 1) :: rest
  | _, ds => [ds.headD 0 + 1]

/-- The lengths of the tails of a text, longest first. -/
def tailLengths : Text → List Nat
  | [] => [0]
  | _ :: b => (b.length + 1) :: tailLengths b

/-- The distances between `a` and every tail of `b`, longest tail first. -/
def distances (b : Text) : Text → List Nat
  | [] => tailLengths b
  | x :: a => nextDistances x b (distances b a)

def distance (a b : Text) : Nat :=
  (distances b a).headD 0

end AsmLens.Text
