import AsmLens.Proofs.Assembly.Scanning
import AsmLens.Proofs.Symbol.Surveying

/-!
# Scanning a file again

A scan that finds nothing has declared every line of the file, so all declarations of the file can
be read and go together. A scan of the same file for another function declares some of these lines
again, and it can only fail for a line of the body or for a location without a file
(`scanWith_endsWith`).
-/

namespace AsmLens

open Text

namespace Locator

/-- The symbols of the function labels of a file. -/
def symbols (t : Target) (text : Text) : List Text :=
  (fileLines text).filterMap (functionLabel? t)

/-- A failure to read the body of `id`, or to find files for its locations. -/
def IsBodyFailure (id : Text) (e : Failure) : Prop :=
  Body.IsLineFailure id e ∨ ∃ missing known, e = .incompleteTable id missing known

variable {t : Target} {name : Text → Text} {path : Text} {us : List FileEntry}
  {ls ls' rest : List Text} {table : FileTable}

/-- The function is missing if no label has its name. -/
theorem linesAfter?_eq_none_iff :
    linesAfter? t name path ls = none ↔ ∀ s ∈ ls.filterMap (functionLabel? t), name s ≠ path := by
  have hlabel : ∀ l, isLabelOf t name path l = false ↔
      ∀ s, functionLabel? t l = some s → name s ≠ path := by
    intro l
    rw [← Bool.not_eq_true, isLabelOf_eq_true_iff]
    simp
  induction ls with
  | nil => simp [linesAfter?]
  | cons l ls ih =>
    by_cases hl : isLabelOf t name path l = true
    · obtain ⟨s, hs, hn⟩ := isLabelOf_eq_true_iff.1 hl
      rw [linesAfter?, List.dropWhile_cons_of_neg (by simp [hl])]
      constructor
      · intro h
        cases h
      · intro h
        exact absurd hn (h s (List.mem_filterMap.2 ⟨l, List.mem_cons_self, hs⟩))
    · rw [Bool.not_eq_true] at hl
      rw [linesAfter?_cons_of_not hl]
      apply Iff.trans ih
      simp only [List.mem_filterMap, List.mem_cons]
      constructor
      · rintro h s ⟨l', rfl | hl', hs⟩
        · exact (hlabel l').1 hl s hs
        · exact h s ⟨l', hl', hs⟩
      · rintro h s ⟨l', hl', hs⟩
        exact h s ⟨l', .inr hl', hs⟩

/-! ## The function of a file -/

/-- A scan in vain has surveyed the labels of the file and declared its lines. -/
theorem surveyed_of_scan {d d' : Demangler} {text : Text} {names : List Text}
    (h : scan path d text = (.ok (.absent names), d')) :
    Surveyed path (symbols d.target text) names d' ∧
      ∃ table, declareLines d.target [] (fileLines text) = .ok table := by
  obtain ⟨hlearn, -, hscan⟩ := scan_eq_ok h
  obtain ⟨hrest, htable, hnames⟩ := scanWith_absent_iff.1 hscan
  exact ⟨⟨fun s hs => knows_of_mem_learnFile hlearn hs, hnames,
    linesAfter?_eq_none_iff.1 hrest⟩, htable⟩

end Locator

end AsmLens
