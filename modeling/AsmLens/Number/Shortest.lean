import AsmLens.Number.Binary64

/-!
# The fewest digits

The digits of a binary fraction are the fewest that stand for it, and the nearest to it of those. On
the grid of the decimals of so many digits it is enough to try the two neighbours of the number: if
any point of the grid stands for it, so does one of them.
-/

namespace AsmLens.Binary64

open Text

/-- How many digits a positive quotient has before the point; without any, the zeros after the point
count negatively. -/
def digitsBeforePoint (num den : Nat) : Int :=
  if den ≤ num then (natural (num / den)).length
  else 1 - ((natural ((num - 1 + den) / num - 1)).length : Int)

/-- The nearer to a quotient of two neighbouring multiples of a power of ten that stand for the same
number `x`, if one of them does. -/
def neighbour? (x : Binary64) (num den : Nat) (exponent : Int) : Option Nat :=
  let scaled : Nat × Nat :=
    if 0 ≤ exponent then (num, den * Nat.pow 10 exponent.toNat)
    else (num * Nat.pow 10 (-exponent).toNat, den)
  let low := scaled.1 / scaled.2
  let near := roundHalfEven scaled.1 scaled.2
  let far := if near = low then low + 1 else low
  [near, far].find? fun m => ofDecimal false m exponent = x

/-- The fewest digits that stand for a positive quotient, and how many of them are before the
point. -/
def shortestDigits (num den : Nat) : Text × Int :=
  let x := ofQuotient false num den
  let before := digitsBeforePoint num den
  let digits (i : Nat) : Option (Text × Int) :=
    (neighbour? x num den (before - (i + 1))).map fun m =>
      (((natural m).reverse.dropWhile (· == '0')).reverse,
        before + ((natural m).length - (i + 1 : Int)))
  ((List.range 17).findSome? digits).getD (['0'], 1)

/-- The digits of the size of a number, and how many of them are before the point. -/
def digitsOf (multiple : Nat) (exponent : Int) : Text × Int :=
  if 0 ≤ exponent then shortestDigits (multiple <<< exponent.toNat) 1
  else shortestDigits multiple (1 <<< (-exponent).toNat)

end AsmLens.Binary64
