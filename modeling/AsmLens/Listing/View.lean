import AsmLens.Console
import AsmLens.Listing.Node
import AsmLens.Options
import AsmLens.Path.Display

/-!
# Views of a listing

What of a listing is shown, and how: the options decide on comments, directives and source lines,
and housekeeping labels are never shown. Labels stand at the margin, all else one column in, and
what was inlined from another file four columns further if source lines are shown. Without source
lines the function's path and place come first.
-/

namespace AsmLens.Listing

open Text

/-- What a view depends on besides the nodes. -/
structure View where
  target : Target
  cwd : Text
  options : Options

namespace View

variable (v : View)

/-- A label that only the compiler cares for. -/
def isHousekeeping (id : Text) : Bool :=
  v.target.housekeeping.any (startsWith · id)

/-- A node that is shown. -/
def shows : Node → Bool
  | .source .. => v.options.rust
  | .statement (.comment _) => v.options.printComments
  | .statement (.label id _) => !v.isHousekeeping id
  | .statement (.instruction _) => true
  | .statement _ => v.options.printDirectives

def path (p : Text) : Text :=
  Path.display p v.target.librarySources v.cwd

/-- A place in a file as it is shown. -/
def place (p : Text) (line : Int) : Text :=
  " (".toList ++ v.path p ++ ':' :: integer line ++ [')']

def title (f : Function) : Text :=
  match f.file, f.loc with
  | some file, some loc => f.id ++ v.place file.path loc.line
  | _, _ => f.id

/-- The first line of a view without source lines. -/
def header (f : Function) : List Piece :=
  [⟨v.title f ++ [':'], some .source⟩]

/-- A location in the function's own file, as far as can be told. -/
def isOwn (f : Function) (l : Option Loc) : Bool :=
  match f.loc, l with
  | some own, some l => l.file == own.file
  | _, _ => true

/-- The location that debugging adds to a line. -/
def debugMark : Option Loc → Text
  | none => "   [-:-]".toList
  | some l => "   [".toList ++ integer l.file ++ ':' :: integer l.line ++ [']']

/-- A text that only debugging adds. -/
def whenDebugging (p : Piece) : List Piece :=
  if v.options.debugMode then [p] else []

def indent (n : Nat) : Piece :=
  ⟨List.replicate n ' ', none⟩

/-- How far a line is indented. -/
def depth (inlined : Bool) : Nat :=
  if inlined then 5 else 1

/-- A directive as it is written. -/
def directiveText : Statement → Text
  | .file e => ".file ".toList ++ integer e.index ++ " \"".toList ++ e.path ++ ['"']
  | .loc l =>
    ".loc ".toList ++ integer l.file ++ ' ' :: integer l.line ++ ' ' :: integer l.column
  | .directive t => t
  | _ => []

/-- The pieces of an instruction. Operands start in a column of their own. -/
def instructionPieces (i : Instruction) : List Piece :=
  if i.operands.isEmpty then [⟨i.mnemonic, some .instruction⟩]
  else
    let style : Option Style :=
      if i.isJump then some .label else if i.isCall then some .source else none
    [⟨padRight 7 i.mnemonic, some .instruction⟩, ⟨' ' :: join ", ".toList i.operands, style⟩]

def sourcePieces (f : Function) (line path : Text) (l : Loc) : List Piece :=
  if isOwn f (some l) then
    indent (depth false) :: ⟨line, some .source⟩
      :: v.whenDebugging ⟨debugMark (some l), some .source⟩
  else [indent (depth true), ⟨line ++ v.place path l.line, some .source⟩]

def statementPieces (f : Function) (s : Statement) : List Piece :=
  let margin := indent (depth (v.options.rust && !isOwn f s.loc?))
  let mark := v.whenDebugging ⟨debugMark s.loc?, none⟩
  match s with
  | .label id _ => indent 0 :: ⟨id ++ [':'], some .label⟩ :: mark
  | .comment t => margin :: ⟨t, none⟩ :: mark
  | .instruction i => margin :: instructionPieces i ++ mark
  | d => [margin, ⟨directiveText d, none⟩]

def pieces (f : Function) : Node → List Piece
  | .source line path l => v.sourcePieces f line path l
  | .statement s => v.statementPieces f s

/-- The pieces of a node that is shown. -/
def render? (f : Function) (n : Node) : Option (List Piece) :=
  if v.shows n then some (v.pieces f n) else none

/-- The lines of a view, in pieces. -/
def lines (f : Function) (s : Sources) : List (List Piece) :=
  (if v.options.rust then [] else [v.header f]) ++ (nodes f s).filterMap (v.render? f)

/-- A view as it is sent to a terminal. -/
def print (c : Coloring) (f : Function) (s : Sources) : Text :=
  (v.lines f s).flatMap (Console.print c)

end View

end AsmLens.Listing
