import AsmLens.Text.Search

/-!
# Cutting at the first occurrence

What stands before the first occurrence of a text is told by the text alone (`IsCutAt`):
nothing is lost before the cut, and no occurrence begins earlier.
-/

namespace AsmLens.Text

/-- `u` is what stands in `s` before the first occurrence of `p`; all of `s` if there is none. -/
structure IsCutAt (p s u : Text) : Prop where
  stops : s = u ∨ ∃ rest, s = u ++ p ++ rest
  first : ∀ a b, s = a ++ p ++ b → u.length ≤ a.length

variable {p s u : Text}

theorem IsCutAt.begins (h : IsCutAt p s u) : u <+: s := by
  rcases h.stops with rfl | ⟨rest, rfl⟩
  · exact List.prefix_rfl
  · exact ⟨p ++ rest, (List.append_assoc _ _ _).symm⟩

/-- What stands before a text is cut at its first occurrence. -/
theorem isCutAt_before (p s : Text) : IsCutAt p s (before p s) := by
  induction s with
  | nil => exact ⟨.inl rfl, fun _ _ _ => Nat.zero_le _⟩
  | cons c s ih =>
    rw [before]
    split
    · rename_i hp
      obtain ⟨rest, hrest⟩ := List.isPrefixOf_iff_prefix.1 hp
      exact ⟨.inr ⟨rest, hrest.symm⟩, fun _ _ _ => Nat.zero_le _⟩
    · rename_i hp
      refine ⟨?_, fun a b hab => ?_⟩
      · rcases ih.stops with hs | ⟨rest, hs⟩
        · exact .inl (congrArg (c :: ·) hs)
        · exact .inr ⟨rest, congrArg (c :: ·) hs⟩
      · cases a with
        | nil => exact absurd (List.isPrefixOf_iff_prefix.2 ⟨b, hab.symm⟩) hp
        | cons a' a =>
          exact Nat.succ_le_succ (ih.first a b (List.cons.inj hab).2)

end AsmLens.Text
