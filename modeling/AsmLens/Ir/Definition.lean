import AsmLens.Assembly.Locator
import AsmLens.Text.Quoted

/-!
# Definitions in LLVM IR

A definition begins with a line that begins with `define` and names a symbol: an at sign, a quoted
name or a run without blanks and opening brackets, and an opening bracket. It ends at the last line
that is a closing brace before the next line that begins a definition or merely begins with
`define`.
-/

namespace AsmLens

open Text

/-- A located definition: the path asked for and its lines. -/
structure IrDefinition where
  path : Text
  lines : List Text
deriving DecidableEq, Repr

namespace Ir

def keyword : Text := "define".toList

/-- The symbol at the start of a text, up to an opening bracket. -/
def symbolHere? (s : Text) : Option Text :=
  let isPlain (c : Char) : Bool := !isBlank c && c != '('
  let plain : Option Text :=
    if (s.dropWhile isPlain).head? = some '(' && !(s.takeWhile isPlain).isEmpty then
      some (s.takeWhile isPlain)
    else none
  match s with
  | '"' :: r =>
    match quotedBody? r with
    | some (name, '(' :: _) => some ('"' :: name ++ ['"'])
    | _ => plain
  | _ => plain

/-- The first symbol after an at sign. -/
def symbolIn? : Text → Option Text
  | [] => none
  | c :: s => if c = '@' then (symbolHere? s).or (symbolIn? s) else symbolIn? s

/-- The symbol that a line defines, without quotes around it. -/
def definedSymbol? (line : Text) : Option Text :=
  if startsWith keyword line then (symbolIn? line).map (stripChar '"') else none

/-- The symbol that a line defines which may be indented. -/
def lineSymbol? (line : Text) : Option Text :=
  definedSymbol? (trim line)

/-- The line may begin another definition. -/
def opensDefinition (line : Text) : Bool :=
  (lineSymbol? line).isSome || startsWith keyword line

/-- The lines up to the last that is a closing brace; all of them if none is. -/
def toClosingBrace (ls : List Text) : List Text :=
  match (ls.reverse.dropWhile fun l => trim l != ['\x7d']).reverse with
  | [] => ls
  | kept => kept

/-- Scans one file, with any naming of symbols. -/
def scanWith (name : Text → Text) (path : Text) : List Text → Scanned IrDefinition
  | [] => .absent []
  | line :: rest =>
    match lineSymbol? line with
    | none => scanWith name path rest
    | some symbol =>
      if name symbol = path then
        .found ⟨path, toClosingBrace (line :: rest.takeWhile fun l => !opensDefinition l)⟩
      else match scanWith name path rest with
        | .absent names => .absent (name symbol :: names)
        | .found f => .found f

/-- Learns the batch of a file: its symbols. An empty symbol is left out of the batch and asked for
alone, and only if the scan comes to it. -/
def learnFile (d : Demangler) (path : Text) (ls : List Text) : Except Failure Unit × Demangler :=
  let symbols := ls.filterMap lineSymbol?
  match d.learn (symbols.filter fun s => !s.isEmpty) with
  | (.error e, d) => (.error e, d)
  | (.ok _, d) =>
    if (symbols.takeWhile fun s => s.isEmpty || d.name s != path).contains [] then d.learn [[]]
    else (.ok (), d)

def scan (path : Text) (d : Demangler) (text : Text) :
    Except Failure (Scanned IrDefinition) × Demangler :=
  let ls := lines text
  match learnFile d path ls with
  | (.error e, d) => (.error e, d)
  | (.ok _, d) => (.ok (scanWith d.name path ls), d)

def locate (d : Demangler) (path : Text) (files : List (Except Failure Text)) :
    Except Failure (Located IrDefinition) × Demangler :=
  searchFiles (scan path) d [] files

end Ir

end AsmLens
