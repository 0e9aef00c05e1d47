import AsmLens.Proofs.Assembly.Classification
import AsmLens.Proofs.Text.Decimal
import Mathlib.Data.Bool.AllAny

/-!
# Declarations of files

A file is declared by the target's directive, an index and a path between quotes (`fileText`), where
CodeView doubles the backslashes of a path (`Target.writtenPath`). A declaration is not cut inside
its quotes, its words and its quoted text are found whatever the path holds, and so it is read as
the file that it declares, with a comment behind it or without one (`declared_file_read`).
-/

namespace AsmLens

open Text

namespace Target

/-! ## Directives and numbers -/

/-- A directive that declares files has no blank and nothing that quotes or opens a comment. -/
theorem mem_fileDirective {t : Target} {c : Char} (h : c ∈ t.fileDirective) :
    isBlank c = false ∧ c ∉ ['"', ';', '#', '/', '@'] := by
  have hcv : ∀ d ∈ ".cv_file".toList, isBlank d = false ∧ d ∉ ['"', ';', '#', '/', '@'] :=
    List.all_iff_forall_prop.1 (by decide)
  have hfile : ∀ d ∈ ".file".toList, isBlank d = false ∧ d ∉ ['"', ';', '#', '/', '@'] :=
    List.all_iff_forall_prop.1 (by decide)
  unfold fileDirective at h
  split at h
  · exact hcv c h
  · exact hfile c h

theorem isSolid_fileDirective (t : Target) : IsSolid t.fileDirective :=
  fun _ hc => (mem_fileDirective hc).1

theorem fileDirective_ne_nil (t : Target) : t.fileDirective ≠ [] := by
  obtain ⟨w, hw⟩ := Fragment.fileDirective_cons t
  rw [hw]
  exact List.cons_ne_nil _ _

theorem isPlain_of_mem_integer {t : Target} {i : Int} {c : Char} (h : c ∈ integer i) :
    Fragments.IsPlain t.commentMarkers c := by
  apply isPlain
  rcases mem_integer h with rfl | hd
  · decide
  · have hr := toNat_of_isDigit hd
    simp only [List.mem_cons, List.not_mem_nil, or_false]
    rintro (rfl | rfl | rfl | rfl | rfl) <;> exact absurd hr (by decide)

/-- A blank begins no marker. -/
theorem isPlain_of_isBlank {t : Target} {c : Char} (h : isBlank c = true) :
    Fragments.IsPlain t.commentMarkers c := by
  apply isPlain
  simp only [List.mem_cons, List.not_mem_nil, or_false]
  rintro (rfl | rfl | rfl | rfl | rfl) <;> exact absurd h (by decide)

/-- No marker has a quote. -/
theorem quote_notMem_of_mem_commentMarkers {t : Target} {m : Text} (h : m ∈ t.commentMarkers) :
    '"' ∉ m := by
  rcases mem_commentMarkers h with rfl | rfl | rfl | rfl <;> decide

/-! ## A declaration -/

/-- A declaration of a file, with what stands between its quotes. -/
def fileText (t : Target) (index : Int) (quoted : Text) : Text :=
  t.fileDirective ++ ' ' :: (integer index ++ ' ' :: '"' :: (quoted ++ ['"']))

/-- A path as a declaration has it between quotes. -/
def writtenPath (t : Target) (p : Text) : Text :=
  if t.isWindows then doubleBackslashes p else p

variable {t : Target} {i : Int} {q : Text}

/-- What stands before the path. -/
theorem fileText_eq (t : Target) (i : Int) (q : Text) :
    t.fileText i q = t.fileDirective ++ (' ' :: (integer i ++ [' '])) ++ '"' :: (q ++ ['"']) := by
  simp only [fileText, List.append_assoc, List.cons_append, List.nil_append]

/-- A declaration ends in a quote. -/
theorem fileText_eq_concat (t : Target) (i : Int) (q : Text) :
    t.fileText i q = t.fileDirective ++ ' ' :: (integer i ++ ' ' :: '"' :: q) ++ ['"'] := by
  simp only [fileText, List.append_assoc, List.cons_append]

theorem isTrimmed_fileText (t : Target) (i : Int) (q : Text) : IsTrimmed (t.fileText i q) := by
  have hquote : IsSolid ['"'] := List.all_iff_forall_prop.1 (by decide)
  rw [fileText_eq_concat, List.append_assoc]
  exact t.isSolid_fileDirective.isTrimmed.append t.fileDirective_ne_nil _ hquote.isTrimmed
    (by decide)

theorem isPlain_of_mem_beforePath {c : Char}
    (h : c ∈ t.fileDirective ++ ' ' :: (integer i ++ [' '])) :
    Fragments.IsPlain t.commentMarkers c := by
  have hspace : Fragments.IsPlain t.commentMarkers ' ' := isPlain_of_isBlank (by decide)
  rcases List.mem_append.1 h with h | h
  · exact isPlain (mem_fileDirective h).2
  · rcases List.mem_cons.1 h with rfl | h
    · exact hspace
    · rcases List.mem_append.1 h with h | h
      · exact isPlain_of_mem_integer h
      · exact List.mem_singleton.1 h ▸ hspace

/-- No comment begins inside a file directive. -/
theorem unmarked_fileText (hq : IsEnclosed q) :
    Fragments.Unmarked t.commentMarkers .outside (t.fileText i q) := by
  rw [fileText_eq]
  exact Fragments.unmarked_plain_append (fun c hc => isPlain_of_mem_beforePath hc)
    (Fragments.unmarked_quote (Fragments.unmarked_enclosed hq trivial))

/-- A declaration ends outside quotes. -/
theorem after_fileText (hq : IsEnclosed q) : Quoting.outside.after (t.fileText i q) = .outside := by
  have hbefore : Quoting.outside.after (t.fileDirective ++ ' ' :: (integer i ++ [' '])) = .outside :=
    Fragments.after_plain fun c hc => (isPlain_of_mem_beforePath hc).1
  rw [fileText_eq, Quoting.after_append, hbefore, Quoting.after_cons, Quoting.after_append]
  show (Quoting.inside.after q).after ['"'] = .outside
  rw [Fragments.after_enclosed hq]
  rfl

/-- The first words of a file directive are its name and its number. -/
theorem words_fileText (t : Target) (i : Int) (q : Text) :
    ∃ w ws, words (t.fileText i q) = t.fileDirective :: integer i :: w :: ws := by
  have hblank : isBlank ' ' = true := by decide
  obtain ⟨w, ws, hwords⟩ := words_cons (c := '"') (by decide) (q ++ ['"'])
  refine ⟨'"' :: w, ws, ?_⟩
  rw [fileText, words_solid_append t.isSolid_fileDirective t.fileDirective_ne_nil hblank,
    words_solid_append (isSolid_integer _) (integer_ne_nil _) hblank, hwords]

/-- Its only quoted text is the path. -/
theorem quotedTexts_fileText (hq : IsEnclosed q) : quotedTexts (t.fileText i q) = [q] := by
  rw [fileText_eq]
  exact quotedTexts_of_quoted (fun h => (isPlain_of_mem_beforePath h).1 rfl) hq

/-- A declaration is read as its index and its path. -/
theorem file?_fileText (hi : IsShort i.natAbs) (hn : 0 ≤ i) (hq : IsEnclosed q) :
    Fragment.file? t (t.fileText i q) =
      .ok (some ⟨if t.isWindows then halveBackslashes q else q, i⟩) := by
  obtain ⟨w, ws, hwords⟩ := words_fileText t i q
  have hdigits : (integer i).all isDigit = true :=
    List.all_eq_true.2 fun c hc => isDigit_of_mem_integer hn hc
  rw [Fragment.file?, hwords, quotedTexts_fileText hq]
  simp only
  rw [if_pos ⟨trivial, hdigits⟩, integer?_integer hi]

/-! ## A declaration on its line -/

/-- What may follow a statement on its line, and the comment in it: nothing, or a comment behind
blanks. -/
inductive IsTrailing (t : Target) : Text → Text → Prop where
  | nothing : IsTrailing t [] []
  | comment {b m : Text} (hb : IsBlanks b) (hm : m ∈ t.commentMarkers) (s : Text) :
    IsTrailing t (b ++ (m ++ s)) (m ++ s)

/-- A path without quotes stays inside its own. -/
theorem isEnclosed_writtenPath {p : Text} (hp : '"' ∉ p) (hb : t.isWindows = false → '\\' ∉ p) :
    IsEnclosed (t.writtenPath p) := by
  unfold writtenPath
  cases hw : t.isWindows with
  | true => exact isEnclosed_doubleBackslashes hp
  | false => exact (isUnquoted_of_notMem hp (hb hw)).isEnclosed

/-- A declaration is cut off from the comment behind it. -/
theorem ofLine_fileText {c comment : Text} (hq : IsEnclosed q) (hc : IsTrailing t c comment) :
    Fragments.ofLine t.commentMarkers (t.fileText i q ++ c) = ⟨t.fileText i q, comment⟩ := by
  cases hc with
  | nothing =>
    rw [List.append_nil]
    exact Fragments.ofLine_of_unmarked (unmarked_fileText hq)
  | @comment b m hb hm s =>
    have hunmarked := unmarked_fileText (t := t) (i := i) hq
    have hafter := after_fileText (t := t) (i := i) hq
    have hany : t.commentMarkers.any (startsWith · (m ++ s)) = true :=
      List.any_eq_true.2 ⟨m, hm, List.isPrefixOf_iff_prefix.2 (List.prefix_append m s)⟩
    have hne : m ++ s ≠ [] := by
      rcases mem_commentMarkers hm with rfl | rfl | rfl | rfl <;> exact List.cons_ne_nil _ _
    rw [fileText_eq_concat] at hunmarked hafter ⊢
    rw [List.append_assoc _ ['"']]
    exact Fragments.ofLine_append_comment (fun m hm => quote_notMem_of_mem_commentMarkers hm)
      (by decide) hunmarked hafter hb (fun d hd => isPlain_of_isBlank (hb d hd)) hne hany

end Target

/-- **A declared file is read.** A path without quotes, and without backslashes where they are not
doubled, is read from its declaration whatever else it holds, with an index that is not too long.
A comment behind the declaration is cut off exactly, whatever it holds. -/
theorem declared_file_read (t : Target) {n : Nat} (hn : IsShort n) {p : Text} (hp : '"' ∉ p)
    (hb : t.isWindows = false → '\\' ∉ p) {c comment : Text} (hc : t.IsTrailing c comment) :
    let line := t.fileText n (t.writtenPath p) ++ c
    Fragments.ofLine t.commentMarkers line = ⟨t.fileText n (t.writtenPath p), comment⟩ ∧
      Fragment.file? t (Fragments.ofLine t.commentMarkers line).node = .ok (some ⟨p, n⟩) := by
  intro line
  have henclosed := Target.isEnclosed_writtenPath hp hb
  have hline : Fragments.ofLine t.commentMarkers line =
      ⟨t.fileText n (t.writtenPath p), comment⟩ := Target.ofLine_fileText henclosed hc
  have hpath : (if t.isWindows then halveBackslashes (t.writtenPath p) else t.writtenPath p) = p := by
    unfold Target.writtenPath
    split
    · exact halveBackslashes_doubleBackslashes p
    · rfl
  have hindex : IsShort (n : Int).natAbs := hn
  refine ⟨hline, ?_⟩
  rw [hline, Target.file?_fileText hindex (Int.natCast_nonneg n) henclosed, hpath]

/-- A path with all that the readers of a line look for, and a comment with quotes. -/
theorem declared_file_read_past_markers :
    let t : Target := ⟨"x86_64-pc-windows-msvc".toList⟩
    let p := "C:\\a;b #1\\[x], y\\\\".toList
    let comment := "# \"z\\".toList
    let line := ".cv_file 12 \"C:\\\\a;b #1\\\\[x], y\\\\\\\\\"\t # \"z\\".toList
    (IsShort 12 ∧ '"' ∉ p ∧ (t.isWindows = false → '\\' ∉ p) ∧
      t.IsTrailing ('\t' :: ' ' :: comment) comment) ∧
    line = t.fileText 12 (t.writtenPath p) ++ '\t' :: ' ' :: comment ∧
    Fragments.ofLine t.commentMarkers line = ⟨t.fileText 12 (t.writtenPath p), comment⟩ ∧
    Fragment.file? t (Fragments.ofLine t.commentMarkers line).node = .ok (some ⟨p, 12⟩) := by
  intro t p comment line
  have hn : IsShort 12 := by
    show (natural 12).length ≤ maxDigits
    decide
  have hp : '"' ∉ p := by decide +kernel
  have hb : t.isWindows = false → '\\' ∉ p := fun h => absurd h (by decide +kernel)
  have hc : t.IsTrailing ('\t' :: ' ' :: comment) comment :=
    .comment (b := ['\t', ' ']) (m := ['#']) (List.all_iff_forall_prop.1 (by decide))
      (by decide +kernel) " \"z\\".toList
  have hline : line = t.fileText 12 (t.writtenPath p) ++ '\t' :: ' ' :: comment := by
    decide +kernel
  have h := declared_file_read t hn hp hb hc
  exact ⟨⟨hn, hp, hb, hc⟩, hline, hline ▸ h⟩

end AsmLens
