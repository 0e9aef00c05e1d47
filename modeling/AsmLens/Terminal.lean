import AsmLens.Console
import AsmLens.Failure
import AsmLens.Text.LowerTable
import AsmLens.Workspace.Basic

/-!
# The terminal

What the environment says about the terminal that a run prints to: whether it is one at all, whether
it can show styles, and how large it is. Lines are never broken to fit, but on a terminal without
columns nothing is shown.
-/

namespace AsmLens.Terminal

open Text

variable (w : Workspace)

/-- A variable of the environment, which is empty if it is not there. -/
def variableText (name : String) : Text :=
  (w.environmentValue? name).getD []

/-- The output goes to a terminal: the environment says so outright, or it asks for colors. -/
def isTerminal : Bool :=
  let outright := variableText w "TTY_COMPATIBLE"
  outright == ['1'] || outright != ['0'] && variableText w "FORCE_COLOR" != []

/-- The terminal is known not to show styles. -/
def isDumb : Bool :=
  let name := lower (variableText w "TERM")
  isTerminal w && (name == "dumb".toList || name == "unknown".toList)

/-- How far the terminal shows styles. If it does, colors can still be left out. -/
def coloring (color : Bool) : Coloring :=
  if isTerminal w && !isDumb w then
    if color then .full else .weight
  else .bare

/-- The environment asks for no colors. -/
def asksNoColor : Bool :=
  variableText w "NO_COLOR" != []

/-- A size that the environment sets. What is no row of digits sets none; digits that make up no
number are a failure. -/
def size? (name : String) : Except Failure (Option Nat) :=
  let digits := variableText w name
  if digits.isEmpty || !digits.all isDigit then .ok none
  else match natural? digits with
    | some n => .ok (some n)
    | none => .error .notNumber

def sizes : Except Failure (Option Nat × Option Nat) := do
  return (← size? w "COLUMNS", ← size? w "LINES")

/-- The terminal has no columns. One that shows no styles has some, unless both sizes are set. -/
def isBlind : Bool :=
  match sizes w with
  | .ok (some 0, rows) => rows.isSome || !isDumb w
  | _ => false

def shown (t : Text) : Text :=
  if isBlind w then [] else t

end AsmLens.Terminal
