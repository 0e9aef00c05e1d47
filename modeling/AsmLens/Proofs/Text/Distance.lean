import AsmLens.Text.Distance
import Mathlib.Order.Bounds.Defs

/-!
# The least number of edits

The row of distances from a text to the tails of another has the distance to the whole in front of
the row for its tail (`distances_cons`), which gives the distance by recursion on both texts
(`distance_cons_cons`). One edit in front of or inside the first text changes the distance by at
most one (`distance_le_of_edit`), and as many edits as the distance says suffice
(`edited_distance`), so it is the least number of edits (`distance_isLeast`).
-/

namespace AsmLens.Text

/-- One text becomes another as one character is inserted, deleted or replaced. -/
inductive Edit : Text → Text → Prop where
  | insert (s t : Text) (c : Char) : Edit (s ++ t) (s ++ c :: t)
  | delete (s t : Text) (c : Char) : Edit (s ++ c :: t) (s ++ t)
  | replace (s t : Text) (c d : Char) : Edit (s ++ c :: t) (s ++ d :: t)

/-- One text becomes another by so many edits, one after another. -/
inductive Edited : Nat → Text → Text → Prop where
  | refl (a : Text) : Edited 0 a a
  | step {a b c : Text} {n : Nat} (first : Edit a b) (rest : Edited n b c) : Edited (n + 1) a c

variable {a a' b : Text}

/-! ## The distance by recursion -/

theorem distances_cons (a b : Text) (y : Char) :
    distances (y :: b) a = distance a (y :: b) :: distances b a := by
  unfold distance
  induction a with
  | nil => rfl
  | cons x a ih =>
    rw [distances, ih, nextDistances]
    rfl

@[simp] theorem distance_nil (b : Text) : distance [] b = b.length := by
  cases b <;> rfl

@[simp] theorem distance_cons_nil (x : Char) (a : Text) :
    distance (x :: a) [] = distance a [] + 1 := rfl

/-- The first character of either text is deleted, or that of one replaced by that of the other. -/
theorem distance_cons_cons (x y : Char) (a b : Text) :
    distance (x :: a) (y :: b) = min (min (distance a (y :: b) + 1) (distance (x :: a) b + 1))
      (distance a b + if x = y then 0 else 1) := by
  rw [distance, distances, distances_cons, nextDistances]
  rfl

/-! ## No fewer edits -/

/-- A character in front is one edit more at most. -/
theorem distance_cons_le (x : Char) (a b : Text) : distance (x :: a) b ≤ distance a b + 1 := by
  cases b with
  | nil => exact Nat.le_refl _
  | cons y b =>
    rw [distance_cons_cons]
    omega

/-- A character in front that is not there is one edit more at most. -/
theorem distance_le_cons (x : Char) (a b : Text) : distance a b ≤ distance (x :: a) b + 1 := by
  induction b with
  | nil =>
    rw [distance_cons_nil]
    omega
  | cons y b ih =>
    have hinsert : distance a (y :: b) ≤ distance a b + 1 := by
      cases a with
      | nil => simp
      | cons z a =>
        rw [distance_cons_cons]
        omega
    rw [distance_cons_cons]
    omega

/-- Another character in front is one edit more at most. -/
theorem distance_replace_le (x y : Char) (a b : Text) :
    distance (x :: a) b ≤ distance (y :: a) b + 1 := by
  induction b with
  | nil => simp
  | cons z b ih =>
    rw [distance_cons_cons, distance_cons_cons]
    split <;> split <;> omega

/-- What is one edit away stays so behind a character. -/
theorem distance_cons_congr (h : ∀ b, distance a b ≤ distance a' b + 1) (x : Char) (b : Text) :
    distance (x :: a) b ≤ distance (x :: a') b + 1 := by
  induction b with
  | nil => exact Nat.succ_le_succ (h [])
  | cons y b ih =>
    have hwhole := h (y :: b)
    have htail := h b
    rw [distance_cons_cons, distance_cons_cons]
    omega

/-- A common beginning adds nothing to the difference of two distances. -/
theorem distance_append_congr (h : ∀ b, distance a b ≤ distance a' b + 1) (s b : Text) :
    distance (s ++ a) b ≤ distance (s ++ a') b + 1 := by
  induction s generalizing b with
  | nil => exact h b
  | cons x s ih => exact distance_cons_congr ih x b

/-- An edit makes the distance shorter by one at most. -/
theorem distance_le_of_edit (h : Edit a a') (b : Text) : distance a b ≤ distance a' b + 1 := by
  cases h with
  | insert s t c => exact distance_append_congr (distance_le_cons c t) s b
  | delete s t c => exact distance_append_congr (distance_cons_le c t) s b
  | replace s t c d => exact distance_append_congr (distance_replace_le c d t) s b

theorem distance_self (a : Text) : distance a a = 0 := by
  induction a with
  | nil => rfl
  | cons x a ih =>
    rw [distance_cons_cons, ih, if_pos rfl]
    omega

/-- A distance is no longer than any way of editing. -/
theorem distance_le_of_edited {n : Nat} (h : Edited n a b) : distance a b ≤ n := by
  induction h with
  | refl a => exact Nat.le_of_eq (distance_self a)
  | step first rest ih => exact Nat.le_trans (distance_le_of_edit first _) (Nat.succ_le_succ ih)

/-! ## No more edits -/

theorem Edit.cons (h : Edit a b) (x : Char) : Edit (x :: a) (x :: b) := by
  cases h with
  | insert s t c => exact .insert (x :: s) t c
  | delete s t c => exact .delete (x :: s) t c
  | replace s t c d => exact .replace (x :: s) t c d

theorem Edited.cons {n : Nat} (h : Edited n a b) (x : Char) : Edited n (x :: a) (x :: b) := by
  induction h with
  | refl a => exact .refl (x :: a)
  | step first rest ih => exact .step (first.cons x) ih

/-- As many edits as the distance says. -/
theorem edited_distance (a b : Text) : Edited (distance a b) a b := by
  -- On both texts, as the recursion of the distance goes.
  induction a generalizing b with
  | nil =>
    induction b with
    | nil => exact .refl []
    | cons y b ih =>
      rw [distance_nil] at ih ⊢
      exact .step (.insert [] [] y) (ih.cons y)
  | cons x a iha =>
    induction b with
    | nil => exact .step (.delete [] a x) (iha [])
    | cons y b ihb =>
      have hdelete : Edited (distance a (y :: b) + 1) (x :: a) (y :: b) :=
        .step (.delete [] a x) (iha (y :: b))
      have hinsert : Edited (distance (x :: a) b + 1) (x :: a) (y :: b) :=
        .step (.insert [] (x :: a) y) (ihb.cons y)
      have hreplace : Edited (distance a b + if x = y then 0 else 1) (x :: a) (y :: b) := by
        split
        · rename_i hxy
          exact hxy ▸ (iha b).cons x
        · exact .step (.replace [] a x y) ((iha b).cons y)
      have hleast : ∀ {n m}, Edited n (x :: a) (y :: b) → Edited m (x :: a) (y :: b) →
          Edited (min n m) (x :: a) (y :: b) := by
        intro n m hn hm
        rcases Nat.le_total n m with h | h
        · rwa [Nat.min_eq_left h]
        · rwa [Nat.min_eq_right h]
      rw [distance_cons_cons]
      exact hleast (hleast hdelete hinsert) hreplace

/-- **The distance is the least number of edits.** -/
theorem distance_isLeast (a b : Text) : IsLeast {n | Edited n a b} (distance a b) :=
  ⟨edited_distance a b, fun _ h => distance_le_of_edited h⟩

end AsmLens.Text
