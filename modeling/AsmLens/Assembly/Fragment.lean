import AsmLens.Text.Search

/-!
# The two parts of a line

A line of assembly is a node part and, from the first comment marker outside double quotes on, a
comment part. Inside quotes a backslash protects the character after it.
-/

namespace AsmLens

open Text

/-- The node part and the comment part of a line. -/
structure Fragments where
  node : Text
  comment : Text
deriving DecidableEq, Repr

namespace Fragments

/-- The text before the first marker outside quotes, and the text from it on. The flag tells
whether the text starts inside quotes. -/
def cut (markers : List Text) : Bool → Text → Text × Text
  | _, [] => ([], [])
  | true, '\\' :: c :: s => let r := cut markers true s; ('\\' :: c :: r.1, r.2)
  | q, c :: s =>
    if !q && markers.any (startsWith · (c :: s)) then ([], c :: s)
    else let r := cut markers (if c = '"' then !q else q) s; (c :: r.1, r.2)

/-- The parts of a line. Blanks before a comment belong to neither. -/
def ofLine (markers : List Text) (line : Text) : Fragments :=
  let r := cut markers false line
  if r.2.isEmpty then ⟨line, []⟩ else ⟨trimEnd r.1, r.2⟩

end Fragments

end AsmLens
