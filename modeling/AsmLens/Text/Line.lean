import AsmLens.Text.Search

/-!
# Lines

In a file a line ends at a line feed, a carriage return or the two together; nothing else ends one
there. In the output of a tool every separator of lines and paragraphs does. Neither has an empty
last line after its last line end.
-/

namespace AsmLens.Text

/-- Every line end of a file as one line feed. -/
def unifyNewlines : Text → Text
  | [] => []
  | '\r' :: '\n' :: s => '\n' :: unifyNewlines s
  | c :: s => (if c = '\r' then '\n' else c) :: unifyNewlines s

/-- A list without its last text if that is empty. -/
def dropLastEmpty (ts : List Text) : List Text :=
  if ts.getLast? = some [] then ts.dropLast else ts

/-- The lines of a text whose line ends are line feeds. -/
def lines (s : Text) : List Text :=
  dropLastEmpty (s.splitOnP (· == '\n'))

def isLineEnd (c : Char) : Bool :=
  inRanges [(0xa, 0xd), (0x1c, 0x1e), (0x85, 0x85), (0x2028, 0x2029)] c.toNat

/-- The lines of a tool's output. -/
def outputLines (s : Text) : List Text :=
  dropLastEmpty ((unifyNewlines s).splitOnP isLineEnd)

/-- The texts as lines, each ended by a line feed. -/
def unlines (ts : List Text) : Text :=
  ts.flatMap fun t => t ++ ['\n']

end AsmLens.Text
