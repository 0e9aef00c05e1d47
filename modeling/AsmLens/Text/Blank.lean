/-!
# Text and blanks

Text is a list of characters, which are the scalar values of Unicode; half a surrogate pair is none.
A blank is one of the 25 white-space characters of Unicode or of the four ASCII separators U+001C to
U+001F; U+200B and U+FEFF are none. Trimming removes blanks at the ends, and `words` are the maximal
runs without one.
-/

namespace AsmLens

/-- Text is a list of characters: lengths and columns count them. -/
abbrev Text := List Char

namespace Text

/-- Membership in a list of inclusive ranges. -/
def inRanges (rs : List (Nat × Nat)) (n : Nat) : Bool :=
  rs.any fun r => decide (r.1 ≤ n) && decide (n ≤ r.2)

theorem inRanges_iff {rs : List (Nat × Nat)} {n : Nat} :
    inRanges rs n = true ↔ ∃ r ∈ rs, r.1 ≤ n ∧ n ≤ r.2 := by
  simp [inRanges]

def blankRanges : List (Nat × Nat) :=
  [(0x9, 0xd), (0x1c, 0x20), (0x85, 0x85), (0xa0, 0xa0), (0x1680, 0x1680), (0x2000, 0x200a),
   (0x2028, 0x2029), (0x202f, 0x202f), (0x205f, 0x205f), (0x3000, 0x3000)]

def isBlank (c : Char) : Bool :=
  inRanges blankRanges c.toNat

def trimStart (s : Text) : Text :=
  s.dropWhile isBlank

def trimEnd (s : Text) : Text :=
  (s.reverse.dropWhile isBlank).reverse

def trim (s : Text) : Text :=
  trimEnd (trimStart s)

/-- The maximal runs without a blank. -/
def words (s : Text) : List Text :=
  (s.splitOnP isBlank).filter fun w => !w.isEmpty

/-- The first word, and what follows the blanks after it. -/
def firstWord? (s : Text) : Option (Text × Text) :=
  match trimStart s with
  | [] => none
  | t => some (t.takeWhile fun c => !isBlank c, trimStart (t.dropWhile fun c => !isBlank c))

end Text

end AsmLens
