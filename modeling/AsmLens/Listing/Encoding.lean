import AsmLens.Json.Printer
import AsmLens.Listing.Node

/-!
# Listings as JSON

An array of objects with one field each, whose name tells the kind of the node, the statement or
the directive. What a reader of the listing can compute, whether an instruction jumps or calls, is
left out.
-/

namespace AsmLens.Listing

open Text

/-- An object whose field names are known. -/
def object (fs : List (String × Json)) : Json :=
  .obj (fs.map fun f => (f.1.toList, f.2))

def encodeLoc (l : Loc) : Json :=
  object [("file_index", .int l.file), ("file_line", .int l.line), ("file_column", .int l.column)]

def encodeLoc? (l : Option Loc) : Json :=
  (l.map encodeLoc).getD .null

def encodeStatement : Statement → Json
  | .label id l => object [("Label", object [("id", .str id), ("rust_loc", encodeLoc? l)])]
  | .file e => object [("Directive", object
      [("File", object [("path", .str e.path), ("index", .int e.index)])])]
  | .loc l => object [("Directive", object [("Loc", encodeLoc l)])]
  | .directive t => object [("Directive", object [("Generic", object [("string", .str t)])])]
  | .instruction i => object [("Instruction", object
      [("instr", .str i.mnemonic), ("args", .arr (i.operands.map fun (t : Text) => .str t)),
       ("rust_loc", encodeLoc? i.loc)])]
  | .comment t => object [("Comment", object [("string", .str t)])]

def encodeNode : Node → Json
  | .source line path l => object
      [("Rust", object [("line", .str line), ("path", .str path), ("loc", encodeLoc l)])]
  | .statement s => object [("Asm", encodeStatement s)]

def toJson (f : Function) (s : Sources) : Text :=
  Json.print (.arr ((nodes f s).map encodeNode))

end AsmLens.Listing
