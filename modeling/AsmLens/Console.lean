import AsmLens.Text.Numeral
import AsmLens.Text.Search

/-!
# Printing

Text is printed in pieces, each with a style or without one. Some control characters are dropped,
a line feed ends a line, and a tab, which fills up to the next column that is a multiple of 8, ends
a piece. Other control characters are printed, but take no column. On a color terminal a styled
piece stands between two escape sequences; a terminal without colors keeps the weight alone, and
anything else gets the bare text.

A console has no width here: lines are neither wrapped nor cut, and the blanks at the end of a line
all stay, also those beyond the width of a real one.
-/

namespace AsmLens

open Text

/-- The styles, by what they are for. -/
inductive Style where
  | instruction
  | label
  | source
  | failure
deriving DecidableEq, Repr

namespace Style

def color : Style → Nat
  | instruction => 94
  | label => 92
  | source => 91
  | failure => 31

end Style

/-- A piece of text of one style. -/
structure Piece where
  text : Text
  style : Option Style
deriving DecidableEq, Repr

/-- How far a terminal shows styles. -/
inductive Coloring where
  | bare
  | weight
  | full
deriving DecidableEq, Repr

namespace Console

/-- A control character that is not printed: the bell, the backspace, the vertical tab, the form
feed and the carriage return. -/
def isDropped (c : Char) : Bool :=
  inRanges [(0x7, 0x8), (0xb, 0xd)] c.toNat

def clean (t : Text) : Text :=
  t.filter fun c => !isDropped c

def cleanPiece (p : Piece) : Piece :=
  { p with text := clean p.text }

/-- Puts lines in front of others: the last of the first goes on with the first of the others. -/
def joinLines : List (List Piece) → List (List Piece) → List (List Piece)
  | [], after => after
  | [l], m :: after => (l ++ m) :: after
  | l :: ls, after => l :: joinLines ls after

/-- The lines of a text in pieces: one more than it has line feeds. -/
def splitLines : List Piece → List (List Piece)
  | [] => [[]]
  | p :: ps => joinLines ((p.text.splitOnP (· == '\n')).map fun t => [{ p with text := t }])
      (splitLines ps)

/-- Puts a character in front of the first of some texts. -/
def pushFront (c : Char) : List Text → List Text
  | [] => [[c]]
  | t :: ts => (c :: t) :: ts

/-- The columns that a character takes: none if it is a control character. -/
def width (c : Char) : Nat :=
  if inRanges [(0x0, 0x1f), (0x7f, 0x9f)] c.toNat then 0 else 1

def columns : Text → Nat
  | [] => 0
  | c :: t => width c + columns t

/-- The parts of a text that end after its tabs, with these filled, from a column on. -/
def fillTabs : Nat → Text → List Text
  | _, [] => []
  | column, c :: t =>
    if c = '\t' then
      List.replicate (8 - column % 8) ' ' :: fillTabs (column + (8 - column % 8)) t
    else pushFront c (fillTabs (column + width c) t)

/-- The pieces of a line with their tabs filled, from a column on. A tab ends a piece. -/
def fillLine : Nat → List Piece → List Piece
  | _, [] => []
  | column, p :: ps =>
    let parts := fillTabs column p.text
    parts.map (fun t => { p with text := t }) ++ fillLine (column + columns parts.flatten) ps

/-- The escape sequence that starts a style. -/
def startCode (c : Coloring) (s : Style) : Text :=
  match c with
  | .bare => []
  | .weight => "\x1b[1m".toList
  | .full => "\x1b[1;".toList ++ natural s.color ++ ['m']

/-- The escape sequence that ends all styles. -/
def endCode : Text :=
  "\x1b[0m".toList

/-- A piece as it is sent to the terminal. -/
def paint (c : Coloring) (p : Piece) : Text :=
  match p.style with
  | none => p.text
  | some s => if c = .bare ∨ p.text = [] then p.text else startCode c s ++ p.text ++ endCode

/-- A text in pieces as it is sent to the terminal. -/
def print (c : Coloring) (ps : List Piece) : Text :=
  (splitLines (ps.map cleanPiece)).flatMap fun l => (fillLine 0 l).flatMap (paint c) ++ ['\n']

/-- Plain lines as they are sent to the terminal. -/
def printLines (c : Coloring) (ls : List Text) : Text :=
  ls.flatMap fun l => print c [⟨l, none⟩]

def printError (c : Coloring) (message : Text) : Text :=
  print c [⟨"[ERROR]: ".toList ++ message, some .failure⟩]

end Console

end AsmLens
