import AsmLens.CommandLine.Word

/-!
# Reading a command line

The first argument names the mode, and all words after it belong to the mode. There the first
argument is the path of a function; switches may stand before and after it. The separator itself
is dropped where the path is still to come or has just been read. Whatever has no place is collected
and refused in the end, unless help is asked for before.
-/

namespace AsmLens.CommandLine

open Text

/-- Why a command line gives no arguments. -/
inductive Stop where
  /-- Help was asked for: on a mode, or on all if it has no name. -/
  | help (mode : Text)
  | usage (problem : UsageProblem)
deriving DecidableEq, Repr

/-- What was read of the words after the mode: the fields set, whether the path was read, and the
words that have no place. -/
structure Progress where
  fields : Json.Fields
  pathRead : Bool
  surplus : List Text

namespace Progress

def start : Progress :=
  ⟨[("path".toList, .null)], false, []⟩

def set (p : Progress) (field : Text) (v : Json) : Progress :=
  { p with fields := Json.set field v p.fields }

def readPath (p : Progress) (path : Json) : Progress :=
  { p.set "path".toList path with pathRead := true }

/-- The progress with one more word that has no place. -/
def drop (p : Progress) (word : Text) : Progress :=
  { p with surplus := p.surplus ++ [word] }

end Progress

/-- The words without a separator at their start. -/
def skipSeparator : List Word → List Word
  | .separator :: ws => ws
  | ws => ws

theorem length_skipSeparator_le (ws : List Word) : (skipSeparator ws).length ≤ ws.length := by
  fun_cases skipSeparator ws with
  | case1 ws => simp
  | case2 => exact Nat.le_refl _

/-- The arguments at the start of some words. -/
def leadingArguments (ws : List Word) : List Text :=
  (ws.map Word.argument?).takeWhile Option.isSome |>.filterMap id

/-- Refuses a word attached to a switch that takes none. -/
def refuseAttached {α : Type} (s : Switch) (word : Text) : Except Stop α :=
  .error (.usage (.attachedIgnored s.title word))

/-- What asking for help comes to. Letters may ask for it again. -/
def askHelp {α : Type} (mode : Text) (s : Switch) : Attached → Except Stop α
  | .nothing => .error (.help mode)
  | .value t => refuseAttached s t
  | .letters t =>
    let others := t.dropWhile (· == 'h')
    if others.isEmpty && !t.isEmpty then .error (.help mode) else refuseAttached s others

/-- The words that a switch takes, out of what is attached and what follows, and how many of those
that follow are taken. A separator is no word, even if it is attached. -/
def takeWords (s : Switch) (attached : Attached) (ws : List Word) :
    Except Stop (List Text × Nat) :=
  match s.effect, attached with
  | .help, _ => .ok ([], 0)
  | .fixed _, .nothing => .ok ([], 0)
  | .fixed _, .value t | .fixed _, .letters t => refuseAttached s t
  | _, .value t | _, .letters t => .ok ((if t = Word.hyphens then [] else [t]), 0)
  | .word _, .nothing =>
    match leadingArguments ws with
    | t :: _ => .ok ([t], 1)
    | [] => .error (.usage (.wordExpected s.title))
  | .list, .nothing =>
    match leadingArguments ws with
    | [] => .error (.usage (.listExpected s.title))
    | ts => .ok (ts, ts.length)

/-- The value that a switch sets: the word that it takes, or an empty list if it took none. -/
def valueOf (s : Switch) (taken : List Text) : Except Stop Json :=
  match s.effect, taken with
  | .fixed v, _ => .ok v
  | .word [], t :: _ => .ok (.str t)
  | .word choices, t :: _ =>
    if choices.contains t then .ok (.str t)
    else .error (.usage (.invalidChoice s.title t choices))
  | _, ts => .ok (.arr (ts.map fun (t : Text) => .str t))

def readWords (mode : Text) (p : Progress) : List Word → Except Stop Progress
  | [] => .ok p
  | .argument t :: ws =>
    if p.pathRead then readWords mode (p.drop t) ws
    else readWords mode (p.readPath (.str t)) (skipSeparator ws)
  | .separator :: ws =>
    if p.pathRead then readWords mode (p.drop Word.hyphens) ws
    else
      let path := (leadingArguments ws).head?.map fun (t : Text) => Json.str t
      readWords mode (p.readPath (path.getD .null)) (ws.drop 1)
  | .unknown t :: ws => readWords mode (p.drop t) ws
  | .use s attached :: ws => do
    if let .help := s.effect then askHelp mode s attached
    else
      let (taken, count) ← takeWords s attached ws
      readWords mode (p.set s.field (← valueOf s taken)) (ws.drop count)
termination_by ws => ws.length
decreasing_by
  · simp
  · exact Nat.lt_succ_of_le (length_skipSeparator_le ws)
  · simp
  · simp only [List.length_drop, List.length_cons]; omega
  · simp
  · simp only [List.length_drop, List.length_cons]; omega

/-- A classification that may fail. -/
def classified (ss : List Switch) (ws : List Text) : Except Stop (List Word) :=
  (Word.ofTexts ss ws).mapError .usage

/-- Reads the words after the mode's name. -/
def readMode (mode : Text) (switches : List Switch) (ws : List Text) : Except Stop Progress := do
  readWords mode .start (← classified switches ws)

/-- The switches of a mode, if there is such a mode. -/
def switchesOf (mode : Text) : Except Stop (List Switch) :=
  match Switch.modes.lookup mode with
  | some ss => .ok ss
  | none => .error (.usage (.invalidChoice "command".toList mode (Switch.modes.map Prod.fst)))

/-- Goes through the words up to the mode: the words without a place, and the mode with the words
after it. Each word comes with its text. -/
def seekMode : List (Word × Text) → Except Stop (List Text × Option (Text × List Text))
  | [] => .ok ([], none)
  | (.use s attached, _) :: _ => askHelp [] s attached
  | (.unknown t, _) :: ws => do
    let (surplus, mode) ← seekMode ws
    return (t :: surplus, mode)
  | (.separator, t) :: ws =>
    .ok (if ws.isEmpty then ([t], none) else ([], some (t, ws.map Prod.snd)))
  | (.argument t, _) :: ws => .ok ([], some (t, ws.map Prod.snd))

/-- The fields given by the words after the mode's name, together with the mode. -/
def modeFields (mode : Text) (p : Progress) : Json.Fields :=
  ("command".toList, .str mode) :: p.fields

def accept (surplus : List Text) (fields : Json.Fields) : Except Stop Json.Fields :=
  if surplus.isEmpty then .ok fields else .error (.usage (.unrecognized surplus))

/-- The arguments that a command line gives. Without a mode there are none. -/
def parse (ws : List Text) : Except Stop Json.Fields := do
  let words ← classified [Switch.help] ws
  match ← seekMode (words.zip ws) with
  | (surplus, none) => accept surplus []
  | (surplus, some (mode, rest)) =>
    let p ← readMode mode (← switchesOf mode) rest
    accept (surplus ++ p.surplus) (modeFields mode p)

end AsmLens.CommandLine
