import AsmLens.Json.Reader
import AsmLens.Proofs.Text.Utf8
import Mathlib.Data.List.Chain

/-!
# Strings of code points

The halves of a surrogate pair, the high one right before the low one, are written as the character
that the pair stands for is, and read as that. A string in which none stand so is joined
(`Str.IsJoined`), as every string of characters is (`Str.isJoined_ofText`). Those are told by their
texts (`Str.ofText_inj`, `Str.toText_ofText`).
-/

namespace AsmLens.Json

namespace CodePoint

/-- The first half of a pair. -/
def IsHigh : CodePoint → Prop
  | char _ => False
  | half n => n.val < 0x400

/-- The second half of a pair. -/
def IsLow : CodePoint → Prop
  | char _ => False
  | half n => 0x400 ≤ n.val

theorem isHigh_ofUnit {n : Nat} : (ofUnit n).IsHigh ↔ isHigh n = true := by
  rw [isHigh, Bool.and_eq_true, decide_eq_true_eq, decide_eq_true_eq]
  unfold ofUnit
  split
  · show n - 0xd800 < 0x400 ↔ _
    omega
  · exact iff_of_false id (by omega)

theorem isLow_ofUnit {n : Nat} : (ofUnit n).IsLow ↔ isLow n = true := by
  rw [isLow, Bool.and_eq_true, decide_eq_true_eq, decide_eq_true_eq]
  unfold ofUnit
  split
  · show 0x400 ≤ n - 0xd800 ↔ _
    omega
  · exact iff_of_false id (by omega)

/-- A half is the code point of its unit. -/
theorem ofUnit_half (n : Fin 0x800) : ofUnit (0xd800 + n) = half n := by
  rw [ofUnit, dif_pos ⟨by omega, by omega⟩]
  simp

/-- No character of the first plane is half a pair. -/
theorem ofUnit_char (c : Char) : ofUnit c.toNat = char c := by
  have hcases := Text.toNat_cases c
  rw [ofUnit, dif_neg (by omega), Char.ofNat_toNat]

end CodePoint

namespace Str

/-- No two halves of a pair stand side by side, the high one first. -/
def IsJoined (s : Str) : Prop :=
  s.IsChain fun p q => p.IsHigh → ¬ q.IsLow

theorem isJoined_nil : IsJoined [] :=
  .nil

theorem isJoined_cons_iff {p : CodePoint} {s : Str} :
    IsJoined (p :: s) ↔ (p.IsHigh → ∀ q ∈ s.head?, ¬ q.IsLow) ∧ IsJoined s := by
  rw [IsJoined, List.isChain_cons]
  exact and_congr_left' ⟨fun h hp q hq => h q hq hp, fun h q hq hp => h hp q hq⟩

variable {t u : Text}

@[simp] theorem isJoined_ofText (t : Text) : IsJoined (ofText t) := by
  induction t with
  | nil => exact isJoined_nil
  | cons c t ih => exact isJoined_cons_iff.2 ⟨False.elim, ih⟩

@[simp] theorem toText_ofText (t : Text) : (ofText t).toText = t := by
  rw [ofText, toText, List.map_map]
  exact List.map_id t

@[simp] theorem ofText_inj : ofText t = ofText u ↔ t = u :=
  ⟨fun h => by rw [← toText_ofText t, h, toText_ofText], congrArg ofText⟩

end Str

end AsmLens.Json
