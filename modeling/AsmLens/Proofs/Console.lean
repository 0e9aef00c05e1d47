import AsmLens.Console
import AsmLens.Proofs.Text.Lines

/-!
# What the terminal gets

Text without a style is sent line by line, with its tabs filled and without the characters that are
not printed (`print_plain`). So a text that has neither is sent as it is, with a line feed at its
end (`print_eq_self`).
-/

namespace AsmLens.Console

open Text

theorem flatten_pushFront (c : Char) (ts : List Text) :
    (pushFront c ts).flatten = c :: ts.flatten := by
  cases ts <;> rfl

/-- Text without dropped characters is printed as it is. -/
theorem clean_eq_self {t : Text} (h : ∀ d ∈ t, isDropped d = false) : clean t = t :=
  List.filter_eq_self.2 fun d hd => by rw [h d hd]; rfl

/-- Only tabs are filled. -/
theorem flatten_fillTabs {t : Text} (h : '\t' ∉ t) (column : Nat) :
    (fillTabs column t).flatten = t := by
  induction t generalizing column with
  | nil => rfl
  | cons c t ih =>
    rw [List.mem_cons, not_or] at h
    rw [fillTabs, if_neg (Ne.symm h.1), flatten_pushFront, ih h.2]

/-- An empty line goes on with what comes before it. -/
theorem joinLines_nil {ls : List (List Piece)} (h : ls ≠ []) : joinLines ls [[]] = ls := by
  induction ls with
  | nil => exact absurd rfl h
  | cons l ls ih =>
    cases ls with
    | nil => simp [joinLines]
    | cons m ls => simp [joinLines, ih]

theorem splitLines_singleton (p : Piece) : splitLines [p] =
    (p.text.splitOnP (· == '\n')).map fun t => [{ p with text := t }] := by
  rw [splitLines, splitLines, joinLines_nil]
  simp [List.splitOnP_ne_nil]

/-- Text without a style is sent line by line. -/
theorem print_plain (c : Coloring) (t : Text) : print c [⟨t, none⟩] =
    unlines (((clean t).splitOnP (· == '\n')).map fun l => (fillTabs 0 l).flatten) := by
  have hline : ∀ l, (fillLine 0 [⟨l, none⟩]).flatMap (paint c) = (fillTabs 0 l).flatten := by
    intro l
    simp [fillLine, List.flatMap_map, paint, List.flatMap_id']
  rw [print, List.map_singleton, splitLines_singleton, List.flatMap_map, unlines, List.flatMap_map]
  simp only [cleanPiece, hline]

/-- **Text that has no tabs and nothing that is not printed is sent as it is**, with a line feed at
its end. -/
theorem print_eq_self (c : Coloring) {t : Text} (htab : '\t' ∉ t)
    (hdropped : ∀ d ∈ t, isDropped d = false) : print c [⟨t, none⟩] = t ++ ['\n'] := by
  have hlines : unlines (t.splitOnP (· == '\n')) = t ++ ['\n'] := by
    rw [← join_newline_eq_unlines (List.splitOnP_ne_nil _ _)]
    exact congrArg (· ++ ['\n']) (List.intercalate_splitOn '\n')
  have hfill : ∀ l ∈ t.splitOnP (· == '\n'), (fillTabs 0 l).flatten = id l := by
    intro l hl
    refine flatten_fillTabs (fun hm => ?_) 0
    have hmem : '\t' ∈ unlines (t.splitOnP (· == '\n')) :=
      List.mem_flatMap.2 ⟨l, hl, List.mem_append_left _ hm⟩
    rw [hlines] at hmem
    exact htab (by simpa using hmem)
  rw [print_plain, clean_eq_self hdropped, List.map_congr_left hfill, List.map_id, hlines]

end AsmLens.Console
