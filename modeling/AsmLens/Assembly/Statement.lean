import AsmLens.Text.Blank

/-!
# Statements

The body of a function as a list of statements. A statement is a label, one of three directives (a
file, a location, any other), an instruction or a comment. Labels and instructions carry the debug
location that was in force where they stand; directives and comments carry none.
-/

namespace AsmLens

/-- A debug location. Line 0 stands for no line. -/
structure Loc where
  file : Int
  line : Int
  column : Int
deriving DecidableEq, Repr

namespace Loc

/-- The source line a location lies in; the column does not matter for it. -/
def key (l : Loc) : Int × Int :=
  (l.file, l.line)

end Loc

/-- A file that the debug information knows under an index. -/
structure FileEntry where
  path : Text
  index : Int
deriving DecidableEq, Repr

/-- An instruction with the location in force. -/
structure Instruction where
  mnemonic : Text
  operands : List Text
  loc : Option Loc
  isJump : Bool
  isCall : Bool
deriving DecidableEq, Repr

/-- One statement of a function's body. -/
inductive Statement where
  | label (id : Text) (loc : Option Loc)
  | file (entry : FileEntry)
  | loc (loc : Loc)
  | directive (text : Text)
  | instruction (instr : Instruction)
  | comment (text : Text)
deriving DecidableEq, Repr

namespace Statement

/-- The location that a label or an instruction carries. -/
def loc? : Statement → Option Loc
  | label _ l => l
  | instruction i => i.loc
  | _ => none

/-- The location that a statement refers to: its own if it sets one, else the one it carries. -/
def reference? : Statement → Option Loc
  | loc l => some l
  | s => s.loc?

def isDirective : Statement → Bool
  | file _ | loc _ | directive _ => true
  | _ => false

def setLoc? : Statement → Option Loc
  | loc l => some l
  | _ => none

def declaredFile? : Statement → Option FileEntry
  | file f => some f
  | _ => none

end Statement

/-- A function: its path, its own defining file and location as far as known, and its body. -/
structure Function where
  id : Text
  file : Option FileEntry
  loc : Option Loc
  statements : List Statement
deriving DecidableEq, Repr

namespace Function

/-- The locations set in the body, in order. -/
def locations (f : Function) : List Loc :=
  f.statements.filterMap Statement.setLoc?

/-- The files declared in the body, in order. -/
def declaredFiles (f : Function) : List FileEntry :=
  f.statements.filterMap Statement.declaredFile?

end Function

end AsmLens
