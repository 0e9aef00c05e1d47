import AsmLens.Assembly.Statement
import AsmLens.Failure

/-!
# File tables

The files that debug information declares, by index. An index may be declared again for the same
path; another path is a conflict. The table keeps the order of the first declarations.
-/

namespace AsmLens

/-- The declared files by index, first declaration first. -/
abbrev FileTable := List (Int × FileEntry)

namespace FileTable

/-- The file declared for an index. -/
def get? (t : FileTable) (index : Int) : Option FileEntry :=
  t.lookup index

def indices (t : FileTable) : List Int :=
  t.map Prod.fst

/-- The table with one more declaration. -/
def declare (t : FileTable) (f : FileEntry) : Except Failure FileTable :=
  match t.get? f.index with
  | none => .ok (t ++ [(f.index, f)])
  | some known =>
    if known.path = f.path then .ok t else .error (.conflictingFile f.index known.path f.path)

/-- The table with declarations one after another. -/
def declareAll (t : FileTable) (fs : List FileEntry) : Except Failure FileTable :=
  fs.foldlM declare t

end FileTable

end AsmLens
