import AsmLens.Text.Blank

/-!
# Code points

Four hexadecimal digits in a JSON string may be half a surrogate pair, which is no character. So a
string of JSON is a list of code points, of which the characters are all but the 2048 halves. Texts
elsewhere are made of characters: a string that leaves JSON has its halves replaced by U+FFFD.
-/

namespace AsmLens.Json

/-- A character, or half a surrogate pair: the code point `0xd800 + n`. -/
inductive CodePoint where
  | char (c : Char)
  | half (n : Fin 0x800)
deriving DecidableEq, Repr

namespace CodePoint

/-- The code point that a UTF-16 unit is on its own. -/
def ofUnit (n : Nat) : CodePoint :=
  if h : 0xd800 ≤ n ∧ n < 0xe000 then .half ⟨n - 0xd800, by omega⟩ else .char (Char.ofNat n)

def toChar : CodePoint → Char
  | char c => c
  | half _ => '\ufffd'

end CodePoint

/-- What stands between the quotes of a string. -/
abbrev Str := List CodePoint

namespace Str

def ofText (t : Text) : Str :=
  t.map .char

instance : Coe Text Str := ⟨ofText⟩

/-- The string as a text, with each half of a pair replaced. -/
def toText (s : Str) : Text :=
  s.map CodePoint.toChar

end Str

end AsmLens.Json
