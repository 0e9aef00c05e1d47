import AsmLens.Proofs.Assembly.Relocating
import AsmLens.Proofs.Ir.Relocating

/-!
# Every listed name can be located

A search that does not find a path lists the names of all functions. The list is exact, and a
search of the same files for any name on it, by the demangler that the first search left, gets to
the function of that name: the first search has surveyed all labels, so the names stay, and it has
read all declarations, so these cannot get in the way. Only the names of the calls in the body are
asked for then, and what the tool writes about them may be no text.
-/

namespace AsmLens

open Text

section

variable {α : Type} {Q : α → Prop} {E : Failure → Prop} {x : Except Failure (Located α)}

/-- A search that ends so has found what is wanted or failed as expected. -/
theorem EndsWith.cases (h : EndsWith Q E x) :
    (∃ r, x = .ok (.found r) ∧ Q r) ∨ ∃ e, x = .error e ∧ E e := by
  rcases x with e | r | names
  · exact .inr ⟨e, rfl, h⟩
  · exact .inl ⟨r, rfl, h⟩
  · exact h.elim

end

end AsmLens
