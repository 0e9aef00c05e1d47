import AsmLens.Listing.Encoding
import AsmLens.Proofs.Console
import AsmLens.Proofs.Json.Printing
import AsmLens.Proofs.Lists

/-!
# What JSON tells of a listing

All of it but what a reader can compute: two listings have the same JSON text if and only if their
nodes are the same up to the flags of instructions (`toJson_eq_iff`). A value tells the kind of what
it encodes by the names of its fields, and the text tells the value, as no fraction is written. The
console changes nothing of the text (`print_toJson`).
-/

namespace AsmLens

open Text

/-- An instruction without its flags. -/
def Instruction.unflagged (i : Instruction) : Instruction :=
  { i with isJump := false, isCall := false }

/-- A statement without the flags of an instruction. -/
def Statement.unflagged : Statement → Statement
  | .instruction i => .instruction i.unflagged
  | s => s

/-- A node without the flags of an instruction. -/
def Node.unflagged : Node → Node
  | .statement s => .statement s.unflagged
  | n => n

theorem Instruction.unflagged_inj {i k : Instruction} : i.unflagged = k.unflagged ↔
    i.mnemonic = k.mnemonic ∧ i.operands = k.operands ∧ i.loc = k.loc := by
  simp [unflagged]

namespace Listing

/-! ## Values -/

theorem encodeLoc_inj {l m : Loc} : encodeLoc l = encodeLoc m ↔ l = m := by
  cases l
  cases m
  simp [encodeLoc, object]

theorem encodeLoc?_inj {l m : Option Loc} : encodeLoc? l = encodeLoc? m ↔ l = m := by
  cases l with
  | none => cases m <;> simp [encodeLoc?, encodeLoc, object]
  | some l =>
    cases m with
    | none => simp [encodeLoc?, encodeLoc, object]
    | some m => simpa [encodeLoc?] using encodeLoc_inj

/-- The value of a statement tells it up to its flags. -/
theorem encodeStatement_eq_iff {s t : Statement} :
    encodeStatement s = encodeStatement t ↔ s.unflagged = t.unflagged := by
  cases s with
  | label id l => cases t <;> simp [encodeStatement, object, Statement.unflagged, encodeLoc?_inj]
  | file e =>
    cases e
    cases t with
    | file e' =>
      cases e'
      simp [encodeStatement, object, Statement.unflagged]
    | loc l => simp [encodeStatement, object, Statement.unflagged, encodeLoc]
    | label | directive | instruction | comment =>
      simp [encodeStatement, object, Statement.unflagged]
  | loc l =>
    cases t with
    | loc l' => simp [encodeStatement, object, Statement.unflagged, encodeLoc_inj]
    | label | file | directive | instruction | comment =>
      simp [encodeStatement, object, Statement.unflagged, encodeLoc]
  | directive text => cases t <;> simp [encodeStatement, object, Statement.unflagged, encodeLoc]
  | instruction i =>
    cases t with
    | instruction k =>
      simp [encodeStatement, object, Statement.unflagged, encodeLoc?_inj,
        Instruction.unflagged_inj, List.map_inj_right]
    | label | file | loc | directive | comment =>
      simp [encodeStatement, object, Statement.unflagged]
  | comment text => cases t <;> simp [encodeStatement, object, Statement.unflagged]

/-- A node is told by its encoding, apart from the flags of an instruction. -/
theorem encodeNode_eq_iff {n m : Node} :
    encodeNode n = encodeNode m ↔ n.unflagged = m.unflagged := by
  cases n with
  | source line path l =>
    cases m with
    | source line' path' l' => simp [encodeNode, object, Node.unflagged, encodeLoc_inj]
    | statement t => simp [encodeNode, object, Node.unflagged]
  | statement s =>
    cases m with
    | source line path l => simp [encodeNode, object, Node.unflagged]
    | statement t => simpa [encodeNode, object, Node.unflagged] using encodeStatement_eq_iff

/-! ## Text -/

theorem isTold_encodeLoc (l : Loc) : (encodeLoc l).IsTold := by
  simp [encodeLoc, object]

theorem isTold_encodeLoc? (l : Option Loc) : (encodeLoc? l).IsTold := by
  cases l with
  | none => exact .null
  | some l => exact isTold_encodeLoc l

/-- The text of a node's encoding tells it: its strings are texts, and there is no binary fraction
in it. -/
theorem isTold_encodeNode (n : Node) : (encodeNode n).IsTold := by
  have hstatement : ∀ s, (encodeStatement s).IsTold := by
    intro s
    cases s <;> simp [encodeStatement, object, isTold_encodeLoc, isTold_encodeLoc?]
  cases n with
  | source line path l => simp [encodeNode, object, isTold_encodeLoc]
  | statement s => simp [encodeNode, object, hstatement]

theorem isTold_encodeNodes (ns : List Node) : (Json.arr (ns.map encodeNode)).IsTold :=
  .arr (List.forall_mem_map.2 fun n _ => isTold_encodeNode n)

/-- **The JSON text of a listing loses nothing** but the flags of instructions. -/
theorem toJson_eq_iff {f f' : Function} {s s' : Sources} :
    toJson f s = toJson f' s' ↔
      (nodes f s).map Node.unflagged = (nodes f' s').map Node.unflagged := by
  rw [← map_eq_map_iff_of fun n m => encodeNode_eq_iff]
  constructor
  · intro h
    exact Json.arr.inj (Json.print_inj (isTold_encodeNodes _) (isTold_encodeNodes _) h)
  · intro h
    rw [toJson, toJson, h]

/-- What is seen is no tab, and no character that the console drops. -/
theorem isDropped_of_isShown {c : Char} (h : IsShown c) :
    c ≠ '\t' ∧ Console.isDropped c = false := by
  rcases h with rfl | ⟨hlow, hhigh⟩
  · decide
  · constructor
    · rintro rfl
      exact absurd hlow (by decide)
    · simp only [Console.isDropped, inRanges, List.any_cons, List.any_nil, Bool.or_false,
        Bool.or_eq_false_iff, Bool.and_eq_false_iff, decide_eq_false_iff_not]
      omega

/-- **The console sends the JSON text of a listing as it is**, whatever the listing holds, with a
line feed at its end. -/
theorem print_toJson (c : Coloring) (f : Function) (s : Sources) :
    Console.print c [⟨toJson f s, none⟩] = toJson f s ++ ['\n'] := by
  have hplain : ∀ d ∈ toJson f s, d ≠ '\t' ∧ Console.isDropped d = false := fun d hd =>
    isDropped_of_isShown (Json.isShown_of_mem_render (isTold_encodeNodes _).isExact 0 d hd)
  exact Console.print_eq_self c (fun h => (hplain _ h).1 rfl) fun d hd => (hplain d hd).2

end Listing

end AsmLens
