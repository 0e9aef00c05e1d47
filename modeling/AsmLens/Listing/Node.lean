import AsmLens.Source.Correlation

/-!
# Interleaving

A listing is the function's statements with source lines between them: each statement that carries
a location comes after the line it was compiled from, unless the line is not known or is nothing
but a comment. A source line is not repeated until another one has come in between.
-/

namespace AsmLens

open Text

/-- A node of a listing. -/
inductive Node where
  | source (line path : Text) (loc : Loc)
  | statement (statement : Statement)
deriving DecidableEq, Repr

namespace Listing

/-- A source line that is only a comment. -/
def isCommentLine (line : Text) : Bool :=
  startsWith "//".toList (trim line)

/-- The source line of a location as a node. -/
def sourceNode? (s : Sources) (l : Loc) : Option Node := do
  let line ← s.line? l
  if isCommentLine line then none else return .source line ((s.path? l).getD []) l

/-- A statement after its source line. -/
def expand (s : Sources) (stmt : Statement) : List Node :=
  (stmt.loc?.bind (sourceNode? s)).toList ++ [.statement stmt]

/-- Drops the source lines that repeat the last one, which is given by its key. -/
def dropRepeats : Option (Int × Int) → List Node → List Node
  | _, [] => []
  | last, .source line path loc :: ns =>
    if last = some loc.key then dropRepeats last ns
    else .source line path loc :: dropRepeats (some loc.key) ns
  | last, .statement s :: ns => .statement s :: dropRepeats last ns

def nodes (f : Function) (s : Sources) : List Node :=
  dropRepeats none (f.statements.flatMap (expand s))

end Listing

end AsmLens
