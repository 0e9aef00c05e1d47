import AsmLens.Text.HiddenTable

/-!
# Words quoted in messages

A message quotes a word in single quotes, or in double quotes if it holds a single quote and no
double one. Backslashes and the enclosing quote are escaped, and characters without a visible form
are shown by their code point.
-/

namespace AsmLens.Text

/-- A number in lower-case hexadecimal, filled up with zeros to `width` digits. -/
def hex (width n : Nat) : Text :=
  let ds := Nat.toDigits 16 n
  List.replicate (width - ds.length) '0' ++ ds

/-- One character between the quotes `q`. -/
def literalChar (q c : Char) : Text :=
  if c = q ∨ c = '\\' then ['\\', c]
  else if c = '\n' then ['\\', 'n']
  else if c = '\r' then ['\\', 'r']
  else if c = '\t' then ['\\', 't']
  else if isHidden c then
    if c.toNat < 0x100 then '\\' :: 'x' :: hex 2 c.toNat
    else if c.toNat < 0x10000 then '\\' :: 'u' :: hex 4 c.toNat
    else '\\' :: 'U' :: hex 8 c.toNat
  else [c]

def literal (s : Text) : Text :=
  let q := if s.contains '\'' && !s.contains '"' then '"' else '\''
  q :: s.flatMap (literalChar q) ++ [q]

end AsmLens.Text
