import AsmLens.CommandLine.Switch
import AsmLens.Text.DigitTable

/-!
# Words of a command line

Before a command line is read, each of its words is classified. A word that begins with a hyphen
uses a switch if it is one of its spellings or, for long ones, begins exactly one of them; a value
may follow an equals sign, and letters may follow a short spelling, with or without such a sign.
Other words with a hyphen are unknown, except numbers and words with a space, which are arguments
like all words without one. Two hyphens alone end the switches.
-/

namespace AsmLens.CommandLine

open Text

/-- What is attached to a switch in one word. -/
inductive Attached where
  | nothing
  /-- What follows the equals sign after a long spelling. -/
  | value (text : Text)
  /-- What follows the letter of a short spelling, or an equals sign there. -/
  | letters (text : Text)
deriving DecidableEq, Repr

/-- A classified word. -/
inductive Word where
  | argument (text : Text)
  | use (switch : Switch) (attached : Attached)
  | unknown (text : Text)
  | separator
deriving Repr

namespace Word

/-- What ends the switches. -/
def hyphens : Text := ['-', '-']

/-- A word that is a negative number: a hyphen, digits, and perhaps a point and more digits. -/
def isNumber (w : Text) : Bool :=
  let isDecimal (c : Char) : Bool := (decimalValue? c).isSome
  match if w.getLast? = some '\n' then w.dropLast else w with
  | '-' :: s =>
    match s.dropWhile isDecimal with
    | [] => !s.isEmpty
    | '.' :: r => !r.isEmpty && r.all isDecimal
    | _ => false
  | _ => false

/-- The spellings of some switches, in order. -/
def spellings (ss : List Switch) : List (Text × Switch) :=
  ss.flatMap fun s => s.names.map fun n => (n, s)

/-- The part of a word before its first equals sign, and the part after it if there is one. -/
def cutValue (w : Text) : Text × Attached :=
  match w.dropWhile (· != '=') with
  | [] => (w, .nothing)
  | _ :: v => (w.takeWhile (· != '='), if startsWith hyphens w then .value v else .letters v)

/-- The switches that a word may mean without spelling one out. -/
def candidates (ss : List Switch) (w : Text) : List (Text × Switch × Attached) :=
  if startsWith hyphens w then
    let (name, attached) := cutValue w
    ((spellings ss).filter fun n => startsWith name n.1).map fun n => (n.1, n.2, attached)
  else
    ((spellings ss).filter fun n => n.1 == w.take 2).map fun n => (n.1, n.2, .letters (w.drop 2))

/-- A word with a hyphen that means no switch. -/
def other (w : Text) : Word :=
  if isNumber w || w.contains ' ' then .argument w else .unknown w

/-- A word that begins with a hyphen and is more than that. -/
def ofHyphened (ss : List Switch) (w : Text) : Except UsageProblem Word :=
  let (name, attached) := cutValue w
  match (spellings ss).lookup w, (spellings ss).lookup name with
  | some s, _ => .ok (.use s .nothing)
  | none, some s => .ok (.use s attached)
  | none, none =>
    match candidates ss w with
    | [] => .ok (other w)
    | [(_, s, a)] => .ok (.use s a)
    | many => .error (.ambiguous w (many.map Prod.fst))

def ofText (ss : List Switch) (w : Text) : Except UsageProblem Word :=
  match w with
  | '-' :: _ :: _ => ofHyphened ss w
  | _ => .ok (.argument w)

/-- The words of a command line. After the separator all are arguments. -/
def ofTexts (ss : List Switch) : List Text → Except UsageProblem (List Word)
  | [] => return []
  | w :: ws =>
    if w = hyphens then return .separator :: ws.map .argument
    else return (← ofText ss w) :: (← ofTexts ss ws)

def argument? : Word → Option Text
  | argument t => some t
  | _ => none

end Word

end AsmLens.CommandLine
