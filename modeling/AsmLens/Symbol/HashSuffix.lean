import AsmLens.Text.Search

/-!
# Hash suffixes

The mangled name of a Rust symbol ends in a hash: two colons, the letter `h` and sixteen lower-case
hexadecimal digits. Stripping it cuts as many characters off the end; the test tolerates a line
feed after the hash, the cut does not look for one.
-/

namespace AsmLens.Symbol

open Text

def isHashDigit (c : Char) : Bool :=
  c.isDigit || (decide ('a' ≤ c) && decide (c ≤ 'f'))

def hashLength : Nat := 19

/-- The form of a hash suffix. -/
def isHashSuffix : Text → Bool
  | ':' :: ':' :: 'h' :: ds => ds.length == 16 && ds.all isHashDigit
  | _ => false

/-- The last `n` characters of a text, or all of it. -/
def lastChars (n : Nat) (s : Text) : Text :=
  s.drop (s.length - n)

def hasHash (name : Text) : Bool :=
  isHashSuffix (lastChars hashLength name)
    || (name.getLast? == some '\n' && isHashSuffix (lastChars hashLength name.dropLast))

def stripHash (name : Text) : Text :=
  if hasHash name then name.take (name.length - hashLength) else name

end AsmLens.Symbol
