import AsmLens.Text.DigitTable

/-!
# Numerals

An integer is written as a sign, if it is negative, and its decimal digits. Reading is more
liberal: blanks around the numeral, a plus sign, leading zeros, digits of any script and single
underscores between digits are accepted. More than 4300 digits are refused.
-/

namespace AsmLens.Text

/-- The decimal digits of a natural number. -/
def natural (n : Nat) : Text :=
  Nat.toDigits 10 n

def integer : Int → Text
  | .ofNat n => natural n
  | .negSucc n => '-' :: natural (n + 1)

/-- The values of digits with single underscores between them. -/
def digitValues : Text → Option (List Nat)
  | [] => none
  | [c] => (decimalValue? c).map ([·])
  | c :: '_' :: s => do return (← decimalValue? c) :: (← digitValues s)
  | c :: s => do return (← decimalValue? c) :: (← digitValues s)

def ofDigits (ds : List Nat) : Nat :=
  ds.foldl (fun n d => 10 * n + d) 0

/-- The longest numeral that is read. -/
def maxDigits : Nat := 4300

def natural? (s : Text) : Option Nat :=
  (digitValues s).bind fun ds => if ds.length ≤ maxDigits then some (ofDigits ds) else none

/-- The blanks that may stand around a numeral: all but the four ASCII separators. -/
def isNumeralBlank (c : Char) : Bool :=
  isBlank c && !inRanges [(0x1c, 0x1f)] c.toNat

/-- The number of a numeral. -/
def integer? (s : Text) : Option Int :=
  match ((s.dropWhile isNumeralBlank).reverse.dropWhile isNumeralBlank).reverse with
  | '-' :: t => (natural? t).map fun n => -(n : Int)
  | '+' :: t => (natural? t).map Int.ofNat
  | t => (natural? t).map Int.ofNat

end AsmLens.Text
