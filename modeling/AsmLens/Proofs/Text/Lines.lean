import AsmLens.Proofs.Text.Trimming
import AsmLens.Text.Line

/-!
# Lines read again

Texts written as lines are read back as they were, if none has a line end of its own: by the rule
for files, where only line feeds count (`lines_unlines`), and by the rule for the output of a tool
(`outputLines_unlines`).
-/

namespace AsmLens.Text

/-- The text stays on one line of a tool's output. -/
def IsOneLine (s : Text) : Prop :=
  ∀ c ∈ s, isLineEnd c = false

instance : DecidablePred IsOneLine :=
  fun s => List.decidableBAll (isLineEnd · = false) s

theorem dropLastEmpty_concat_nil (ts : List Text) : dropLastEmpty (ts ++ [[]]) = ts := by
  rw [dropLastEmpty, if_pos (by simp), List.dropLast_concat]

/-- Cutting at line feeds, and at nothing that the texts have, undoes writing them as lines. -/
theorem splitOnP_unlines {p : Char → Bool} (hp : p '\n' = true) {ts : List Text}
    (h : ∀ t ∈ ts, ∀ c ∈ t, p c = false) : (unlines ts).splitOnP p = ts ++ [[]] := by
  induction ts with
  | nil => rfl
  | cons t ts ih =>
    have hwritten : unlines (t :: ts) = t ++ '\n' :: unlines ts := by simp [unlines]
    rw [hwritten, List.splitOnP_append_cons _ _ hp,
      List.splitOnP_eq_singleton (h t List.mem_cons_self),
      ih fun u hu => h u (List.mem_cons_of_mem _ hu)]
    rfl

/-- Lines that are put together are cut apart again. -/
theorem lines_unlines {ts : List Text} (h : ∀ t ∈ ts, '\n' ∉ t) : lines (unlines ts) = ts := by
  have hcut : ∀ t ∈ ts, ∀ c ∈ t, (c == '\n') = false := fun t ht c hc =>
    beq_eq_false_iff_ne.2 fun he => h t ht (he ▸ hc)
  rw [lines, splitOnP_unlines rfl hcut, dropLastEmpty_concat_nil]

theorem unifyNewlines_eq_self {s : Text} (h : '\r' ∉ s) : unifyNewlines s = s := by
  fun_induction unifyNewlines s with
  | case1 => rfl
  | case2 s ih => exact absurd List.mem_cons_self h
  | case3 c s _ ih =>
    rw [ih fun hs => h (List.mem_cons_of_mem _ hs), if_neg]
    rintro rfl
    exact h List.mem_cons_self

theorem outputLines_unlines {ts : List Text} (h : ∀ t ∈ ts, IsOneLine t) :
    outputLines (unlines ts) = ts := by
  have hreturn : '\r' ∉ unlines ts := by
    intro hr
    obtain ⟨t, ht, hr⟩ := List.mem_flatMap.1 hr
    rcases List.mem_append.1 hr with hr | hr
    · exact absurd (h t ht _ hr) (by decide)
    · exact absurd hr (by decide)
  rw [outputLines, unifyNewlines_eq_self hreturn, splitOnP_unlines (by decide) h,
    dropLastEmpty_concat_nil]

/-- Texts joined by line feeds, with one more at the end, are lines. -/
theorem join_newline_eq_unlines {ts : List Text} (h : ts ≠ []) :
    join ['\n'] ts ++ ['\n'] = unlines ts := by
  induction ts with
  | nil => exact absurd rfl h
  | cons t ts ih =>
    cases ts with
    | nil => simp [join, unlines, List.intercalate]
    | cons u us =>
      have hjoin : join ['\n'] (t :: u :: us) = t ++ ('\n' :: join ['\n'] (u :: us)) := by
        simp [join, List.intercalate]
      rw [hjoin, List.append_assoc, List.cons_append, ih (List.cons_ne_nil _ _)]
      simp [unlines]

theorem newline_notMem_of_mem_lines {s l : Text} (h : l ∈ lines s) : '\n' ∉ l := by
  have hl : l ∈ s.splitOnP (· == '\n') := by
    unfold lines dropLastEmpty at h
    split at h
    · exact List.dropLast_subset _ h
    · exact h
  intro hn
  exact absurd (forall_mem_splitOnP _ s l hl _ hn) (by decide)

end AsmLens.Text
