import AsmLens.Assembly.Fragment
import AsmLens.Assembly.Statement
import AsmLens.Failure
import AsmLens.Path.Absolute
import AsmLens.Target
import AsmLens.Text.Quoted
import AsmLens.Text.WordTable

/-!
# Classifying a fragment

Each classifier accepts the fragments of one kind: comments, directives (files, locations, others),
labels and instructions. `statement?` asks the last three in that order of strength: directive,
label, instruction. `classify` does so for any fragment, where a comment comes last.

A file directive whose index has digits that no numeral is written with fails as a whole, because
its index is converted after it has been accepted; a location directive with such a number is
merely no location.
-/

namespace AsmLens

open Text

namespace Fragment

variable (t : Target)

/-- The fragment opens with a comment marker. -/
def opensComment (s : Text) : Bool :=
  t.commentMarkers.any (startsWith · s)

def comment? (s : Text) : Option Statement :=
  if !s.isEmpty && opensComment t s then some (.comment s) else none

/-! ## Labels -/

/-- Text without one line feed at its end. -/
def dropNewline (s : Text) : Text :=
  if s.getLast? = some '\n' then s.dropLast else s

/-- What can stand before the colon of a label: a quoted name, or a run without blanks and
quotes. -/
def isLabelName (s : Text) : Bool :=
  match s with
  | [] => false
  | '"' :: r =>
    r.getLast? == some '"' && !r.dropLast.isEmpty && r.dropLast.all (· != '"')
  | _ => s.all fun c => !isBlank c && c != '"'

/-- The form of a label: a name and a colon. A line feed after them is tolerated. -/
def isLabelForm (s : Text) : Bool :=
  let r := dropNewline s
  r.getLast? == some ':' && isLabelName r.dropLast

/-- The name of a label: the fragment without its last character. -/
def labelName? (s : Text) : Option Text :=
  if isLabelForm s && !opensComment t s then some s.dropLast else none

def label? (s : Text) (loc : Option Loc) : Option Statement :=
  (labelName? t s).map fun id => .label id loc

/-! ## Directives -/

/-- A file directive: its index, and the path made of its quoted parts. CodeView doubles the
backslashes of a path; elsewhere a second quoted part is a name below the first. -/
def file? (s : Text) : Except Failure (Option FileEntry) :=
  match words s, quotedTexts s with
  | name :: index :: _ :: _, path :: more =>
    if name = t.fileDirective ∧ index.all isDigit then
      match integer? index with
      | none => .error .notNumber
      | some n =>
        .ok (some ⟨if t.isWindows then halveBackslashes path
          else match more with
            | below :: _ => if below.isEmpty then path else Path.joinDebug path below
            | [] => path, n⟩)
    else .ok none
  | _, _ => .ok none

/-- A location directive. A column that is no digits counts as column 0. -/
def loc? (s : Text) : Option Loc :=
  let ws := words s
  let (f, l, c) := t.locFields
  if ws.head? = some t.locDirective then do
    let file ← ws[f]? >>= integer?
    let line ← ws[l]? >>= integer?
    let column ← match ws[c]? with
      | some w => if w.all isDigit then integer? w else some 0
      | none => some 0
    return ⟨file, line, column⟩
  else none

/-- A directive: a fragment that begins with a full stop and is no label. -/
def directive? (s : Text) : Except Failure (Option Statement) :=
  if startsWith ['.'] s && !isLabelForm s then do
    match ← file? t s with
    | some f => return some (.file f)
    | none => match loc? t s with
      | some l => return some (.loc l)
      | none => return some (.directive s)
  else return none

/-! ## Instructions -/

/-- What a mnemonic is written with. -/
def isMnemonic (s : Text) : Bool :=
  match s with
  | [] => false
  | c :: r => (c.isAlpha || c == '_') && r.all fun c => isWordChar c || c == '.'

/-- Cuts at the commas outside brackets. `depth` counts the brackets open before the text; a
closing bracket with none open counts for nothing. -/
def cutOperands : Nat → Text → List Text
  | _, [] => [[]]
  | depth, c :: s =>
    let depth := if c = '[' ∨ c = '(' then depth + 1
      else if c = ']' ∨ c = ')' then depth - 1 else depth
    if c = ',' ∧ depth = 0 then [] :: cutOperands depth s
    else match cutOperands depth s with
      | w :: ws => (c :: w) :: ws
      | [] => [[c]]

def operands (s : Text) : List Text :=
  ((cutOperands 0 s).map trim).filter fun a => !a.isEmpty

def parts? (s : Text) : Option (Text × List Text) :=
  match firstWord? s with
  | some (m, rest) => if isMnemonic m then some (m, operands rest) else none
  | none => none

/-- An instruction. The target of a call is renamed; whether the instruction jumps is told from
the operands as they are then. -/
def instruction? (s : Text) (loc : Option Loc) (rename : Text → Text) : Option Statement :=
  (parts? s).map fun (m, args) =>
    let call := t.isCall m
    let args := if call then args.modifyHead rename else args
    .instruction ⟨m, args, loc, t.isJump m args, call⟩

/-- The target of a call, as written. -/
def callTarget? (s : Text) : Option Text :=
  match parts? s with
  | some (m, a :: _) => if t.isCall m then some a else none
  | _ => none

/-! ## All together -/

/-- The statement that a fragment is if it is known to be no comment. -/
def statement? (s : Text) (loc : Option Loc) (rename : Text → Text) :
    Except Failure (Option Statement) := do
  match ← directive? t s with
  | some d => return some d
  | none => return (label? t s loc).or (instruction? t s loc rename)

/-- The statement that a fragment is, if any. -/
def classify (s : Text) (loc : Option Loc) (rename : Text → Text) :
    Except Failure (Option Statement) := do
  match ← directive? t s with
  | some d => return some d
  | none => match label? t s loc with
    | some l => return some l
    | none =>
      match if opensComment t s then none else instruction? t s loc rename with
      | some i => return some i
      | none => return comment? t s

end Fragment

end AsmLens
