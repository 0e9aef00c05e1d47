import AsmLens.Listing.View
import AsmLens.Proofs.Assembly.Classification
import AsmLens.Proofs.Assembly.FileDirective
import AsmLens.Proofs.Assembly.Operands
import AsmLens.Proofs.Text.Decimal
import AsmLens.Proofs.Text.Quoting
import Mathlib.Data.Bool.AllAny

/-!
# Written statements

A statement is written as one node part. What was read as a statement is written so that it is
read as the same one (`IsWritten`), for each kind for a reason of its own: a label and a directive
are written as they were read, the numbers of a location and the path of a file are short and plain
enough to be read again, and operands are found again when they are joined.
-/

namespace AsmLens.Listing

open Text Fragment

/-- An instruction as it is written. -/
def instructionText (m : Text) (args : List Text) : Text :=
  if args = [] then m else padRight 7 m ++ ' ' :: join separator args

/-- A statement as it is written, without a margin. -/
def written : Statement → Text
  | .label id _ => id ++ [':']
  | .comment c => c
  | .instruction i => instructionText i.mnemonic i.operands
  | d => View.directiveText d

/-- The text `u` is a node part that is read as the statement `st` wherever it stands. -/
structure IsWritten (t : Target) (u : Text) (st : Statement) : Prop where
  trimmed : IsTrimmed u
  ne : u ≠ []
  unmarked : Fragments.Unmarked t.commentMarkers .outside u
  classified : ∀ loc, st.Carries loc → classify t u loc id = .ok (some st)

variable {t : Target} {s : Text}

/-! ## Characters -/

theorem isPlain_of_mem {w : Text} {c : Char}
    (hw : ∀ d ∈ w, d ∉ ['"', ';', '#', '/', '@']) (h : c ∈ w) :
    Fragments.IsPlain t.commentMarkers c :=
  Target.isPlain (hw c h)

/-- What has a blank is a label only if it is quoted. -/
theorem isLabelForm_of_blank {c : Char} (ht : IsTrimmed s) (hq : s.head? ≠ some '"') (hc : c ∈ s)
    (hb : isBlank c = true) : isLabelForm s = false := by
  apply Bool.eq_false_iff.2
  intro hl
  have hsolid := isSolid_of_isLabelForm ht hq hl c hc
  exact Bool.false_ne_true (hsolid.symm.trans hb)

/-! ## Locations -/

/-- The numbers of a location that was read are short, and its column is not negative. -/
theorem isShort_of_loc? {l : Loc} (h : loc? t s = some l) :
    IsShort l.file.natAbs ∧ IsShort l.line.natAbs ∧ IsShort l.column.natAbs ∧ 0 ≤ l.column := by
  have hzero : IsShort (0 : Int).natAbs := by
    show (1 : Nat) ≤ maxDigits
    decide
  unfold loc? at h
  dsimp only at h
  split at h
  · obtain ⟨file, hfile, h⟩ := Option.bind_eq_some_iff.1 h
    obtain ⟨line, hline, h⟩ := Option.bind_eq_some_iff.1 h
    obtain ⟨v, -, hv⟩ := Option.bind_eq_some_iff.1 hfile
    obtain ⟨w, -, hw⟩ := Option.bind_eq_some_iff.1 hline
    split at h
    · split at h
      · rename_i u _ hall
        obtain ⟨column, hcolumn, h⟩ := Option.bind_eq_some_iff.1 h
        cases h
        exact ⟨isShort_of_integer? hv, isShort_of_integer? hw, isShort_of_integer? hcolumn,
          nonneg_of_digits (List.all_eq_true.1 hall) hcolumn⟩
      · cases h
        exact ⟨isShort_of_integer? hv, isShort_of_integer? hw, hzero, Int.le_refl 0⟩
    · cases h
      exact ⟨isShort_of_integer? hv, isShort_of_integer? hw, hzero, Int.le_refl 0⟩
  · cases h

/-- A location as it is written. -/
theorem directiveText_loc (l : Loc) :
    View.directiveText (.loc l) =
      ['.', 'l', 'o', 'c'] ++
        ' ' :: (integer l.file ++ ' ' :: (integer l.line ++ ' ' :: integer l.column)) := by
  have hshape : ∀ a b c : Text, ".loc ".toList ++ a ++ ' ' :: b ++ ' ' :: c =
      ['.', 'l', 'o', 'c'] ++ ' ' :: (a ++ ' ' :: (b ++ ' ' :: c)) := by
    intro a b c
    rw [List.append_assoc, List.append_assoc, List.cons_append]
    rfl
  exact hshape _ _ _

theorem words_loc (l : Loc) :
    words (View.directiveText (.loc l)) =
      [['.', 'l', 'o', 'c'], integer l.file, integer l.line, integer l.column] := by
  have hsolid : IsSolid ['.', 'l', 'o', 'c'] := List.all_iff_forall_prop.1 (by decide)
  have hblank : isBlank ' ' = true := by decide
  rw [directiveText_loc, words_solid_append hsolid (by decide) hblank,
    words_solid_append (isSolid_integer _) (integer_ne_nil _) hblank,
    words_solid_append (isSolid_integer _) (integer_ne_nil _) hblank,
    words_of_solid (isSolid_integer _) (integer_ne_nil _)]

/-- A printed location is read back. -/
theorem loc?_directiveText (hw : t.isWindows = false) {l : Loc} (hf : IsShort l.file.natAbs)
    (hl : IsShort l.line.natAbs) (hc : IsShort l.column.natAbs) (hn : 0 ≤ l.column) :
    loc? t (View.directiveText (.loc l)) = some l := by
  have hdigits : (integer l.column).all isDigit = true :=
    List.all_eq_true.2 fun c hmem => isDigit_of_mem_integer hn hmem
  rw [loc?, words_loc, Target.locFields, Target.locDirective, hw]
  simp [integer?_integer hf, integer?_integer hl, integer?_integer hc, hdigits]

theorem isTrimmed_loc (l : Loc) : IsTrimmed (View.directiveText (.loc l)) := by
  have hshape : View.directiveText (.loc l) = ['.', 'l', 'o', 'c'] ++
      (' ' :: (integer l.file ++ ' ' :: (integer l.line ++ [' '])) ++ integer l.column) := by
    rw [directiveText_loc]
    simp only [List.append_assoc, List.cons_append, List.nil_append]
  have hsolid : IsSolid ['.', 'l', 'o', 'c'] := List.all_iff_forall_prop.1 (by decide)
  rw [hshape]
  exact hsolid.isTrimmed.append (by decide) _ (isSolid_integer _).isTrimmed (integer_ne_nil _)

theorem unmarked_loc (l : Loc) :
    Fragments.Unmarked t.commentMarkers .outside (View.directiveText (.loc l)) := by
  have hname : ∀ d ∈ ['.', 'l', 'o', 'c'], d ∉ ['"', ';', '#', '/', '@'] :=
    List.all_iff_forall_prop.1 (by decide)
  have hspace : Fragments.IsPlain t.commentMarkers ' ' := Target.isPlain (by decide)
  have hnumber : ∀ (i : Int), ∀ c ∈ integer i, Fragments.IsPlain t.commentMarkers c :=
    fun _ _ hc => Target.isPlain_of_mem_integer hc
  rw [directiveText_loc]
  refine Fragments.unmarked_plain_append (fun c hc => isPlain_of_mem hname hc) ?_
  apply Fragments.unmarked_cons hspace
  apply Fragments.unmarked_plain_append (hnumber l.file)
  apply Fragments.unmarked_cons hspace
  apply Fragments.unmarked_plain_append (hnumber l.line)
  apply Fragments.unmarked_cons hspace
  exact Fragments.unmarked_of_plain (hnumber l.column)

/-- A location declares no file. -/
theorem file?_loc (hw : t.isWindows = false) (l : Loc) :
    file? t (View.directiveText (.loc l)) = .ok none := by
  apply Classical.byContradiction
  intro hne
  obtain ⟨index, w, ws, hwords⟩ := words_of_file? hne
  rw [words_loc, Target.fileDirective, hw] at hwords
  exact absurd (List.cons.inj hwords).1 (by decide)

/-- A location is written as a fragment that is read back. -/
theorem isWritten_loc (hw : t.isWindows = false) {l : Loc} (hf : IsShort l.file.natAbs)
    (hl : IsShort l.line.natAbs) (hc : IsShort l.column.natAbs) (hn : 0 ≤ l.column) :
    IsWritten t (View.directiveText (.loc l)) (.loc l) := by
  have hhead : (View.directiveText (.loc l)).head? = some '.' := by
    rw [directiveText_loc]
    rfl
  have hblank : ' ' ∈ View.directiveText (.loc l) := by
    rw [directiveText_loc]
    simp
  have hlabel : isLabelForm (View.directiveText (.loc l)) = false :=
    isLabelForm_of_blank (isTrimmed_loc l) (by rw [hhead]; decide) hblank (by decide)
  have hdirective : directive? t (View.directiveText (.loc l)) = .ok (some (.loc l)) := by
    rw [directive?_eq (startsWith_dot_iff.2 hhead) hlabel, file?_loc hw, map_ok, Option.elim_none,
      directiveOr, loc?_directiveText hw hf hl hc hn]
  exact ⟨isTrimmed_loc l, List.ne_nil_of_mem hblank, unmarked_loc l,
    fun _ _ => classify_of_directive? hdirective⟩

/-! ## Files -/

/-- A joined path has only characters of its parts, and slashes. -/
theorem mem_joinDebug {a b : Text} {c : Char} (ha : '\\' ∉ a) (h : c ∈ Path.joinDebug a b) :
    c = '/' ∨ c ∈ a ∨ c ∈ b := by
  have hdriven : (a.contains '\\' && !a.contains '/') = false := by simp [ha]
  rw [Path.joinDebug, hdriven] at h
  split at h
  · exact .inr (.inr h)
  · rw [if_neg (by simp), Path.joinRooted] at h
    split at h
    · exact .inr (.inr h)
    · split at h
      · exact .inr (List.mem_append.1 h)
      · rcases List.mem_append.1 h with h | h
        · exact .inr (.inl h)
        · rcases List.mem_cons.1 h with h | h
          · exact .inl h
          · exact .inr (.inr h)

/-- A declared file has an index made of digits, and a path made of one quoted part or two. -/
theorem file?_cases (hw : t.isWindows = false) {f : FileEntry} (h : file? t s = .ok (some f)) :
    ∃ index path more, quotedTexts s = path :: more ∧ index.all isDigit = true ∧
      integer? index = some f.index ∧
      f.path = match more with
        | below :: _ => if below.isEmpty then path else Path.joinDebug path below
        | [] => path := by
  unfold file? at h
  split at h
  · rename_i name index w ws path more hwords hquoted
    split at h
    · rename_i hc
      split at h
      · cases h
      · rename_i n hn
        rw [hw] at h
        cases h
        exact ⟨index, path, more, hquoted, hc.2, hn, rfl⟩
    · cases h
  · cases h

/-- The index of a file that was read is short and not negative. -/
theorem isShort_of_file? (hw : t.isWindows = false) {f : FileEntry}
    (h : file? t s = .ok (some f)) : IsShort f.index.natAbs ∧ 0 ≤ f.index := by
  obtain ⟨index, -, -, -, hdigits, hindex, -⟩ := file?_cases hw h
  exact ⟨isShort_of_integer? hindex, nonneg_of_digits (List.all_eq_true.1 hdigits) hindex⟩

/-- The path of a declared file comes from the quoted texts. -/
theorem mem_path_of_file? (hw : t.isWindows = false) {f : FileEntry} (hs : '\\' ∉ s)
    (h : file? t s = .ok (some f)) {c : Char} (hc : c ∈ f.path) :
    c = '/' ∨ ∃ p ∈ quotedTexts s, c ∈ p := by
  obtain ⟨-, path, more, hquoted, -, -, hpath⟩ := file?_cases hw h
  have hfirst : path ∈ quotedTexts s := by simp [hquoted]
  rw [hpath] at hc
  cases more with
  | nil => exact .inr ⟨path, hfirst, hc⟩
  | cons below more =>
    have hsecond : below ∈ quotedTexts s := by simp [hquoted]
    dsimp only at hc
    split at hc
    · exact .inr ⟨path, hfirst, hc⟩
    · have hplain : '\\' ∉ path := fun hb =>
        ((isUnquoted_of_mem_quotedTexts hs hfirst).1 _ hb).2 rfl
      rcases mem_joinDebug hplain hc with hc | hc | hc
      · exact .inl hc
      · exact .inr ⟨path, hfirst, hc⟩
      · exact .inr ⟨below, hsecond, hc⟩

/-- The path of a file that was read has neither quotes nor backslashes if the directive has no
backslashes. -/
theorem isUnquoted_of_file? (hw : t.isWindows = false) {f : FileEntry} (hs : '\\' ∉ s)
    (h : file? t s = .ok (some f)) :
    IsUnquoted f.path ∧ ∀ c ∈ f.path, c = '/' ∨ c ∈ s := by
  constructor
  · intro c hc
    rcases mem_path_of_file? hw hs h hc with rfl | ⟨p, hp, hc⟩
    · decide
    · exact (isUnquoted_of_mem_quotedTexts hs hp).1 c hc
  · intro c hc
    rcases mem_path_of_file? hw hs h hc with hc | ⟨p, hp, hc⟩
    · exact .inl hc
    · exact .inr ((isUnquoted_of_mem_quotedTexts hs hp).2 c hc)

/-- A file is written as it is declared. -/
theorem directiveText_file (hw : t.isWindows = false) (f : FileEntry) :
    View.directiveText (.file f) = t.fileText f.index f.path := by
  have hname : t.fileDirective = ".file".toList := by
    rw [Target.fileDirective, hw]
    rfl
  have hshape : ∀ a b : Text, ".file ".toList ++ a ++ " \"".toList ++ b ++ ['"'] =
      ".file".toList ++ ' ' :: (a ++ ' ' :: '"' :: (b ++ ['"'])) := by
    intro a b
    rw [List.append_assoc, List.append_assoc, List.append_assoc]
    rfl
  rw [Target.fileText, hname]
  exact hshape _ _

/-- A declared file is written as a fragment that is read back. -/
theorem isWritten_file (hw : t.isWindows = false) {f : FileEntry} (hi : IsShort f.index.natAbs)
    (hn : 0 ≤ f.index) (hp : IsUnquoted f.path) :
    IsWritten t (View.directiveText (.file f)) (.file f) := by
  have htrimmed := t.isTrimmed_fileText f.index f.path
  have hne : t.fileText f.index f.path ≠ [] := by simp [Target.fileText]
  have hread : file? t (t.fileText f.index f.path) = .ok (some f) := by
    rw [Target.file?_fileText hi hn hp.isEnclosed, hw]
    rfl
  have hdirective := directive?_of_file? htrimmed hread
  rw [directiveText_file hw]
  exact ⟨htrimmed, hne, Target.unmarked_fileText hp.isEnclosed,
    fun _ _ => classify_of_directive? hdirective⟩

/-! ## Instructions -/

theorem isPlain_of_mem_mnemonic {m : Text} {c : Char} (hm : isMnemonic m = true) (hc : c ∈ m) :
    Fragments.IsPlain t.commentMarkers c := by
  refine Target.isPlain fun h => mem_mnemonic hm hc ?_
  simp only [List.mem_cons, List.not_mem_nil, or_false] at h ⊢
  tauto

/-- A mnemonic begins neither as a directive nor as a quoted label. -/
theorem head?_mnemonic {m : Text} (hm : isMnemonic m = true) :
    ∃ c r, m = c :: r ∧ c ≠ '.' ∧ c ≠ '"' := by
  cases m with
  | nil => cases hm
  | cons c r =>
    rw [isMnemonic, Bool.and_eq_true] at hm
    refine ⟨c, r, rfl, ?_, ?_⟩
    · rintro rfl
      exact absurd hm.1 (by decide)
    · rintro rfl
      exact absurd hm.1 (by decide)

/-- Nothing stands before the mnemonic of a trimmed instruction. -/
theorem eq_append_of_isTrimmed {m : Text} {args : List Text} (ht : IsTrimmed s)
    (h : parts? s = some (m, args)) :
    isMnemonic m = true ∧ IsSolid m ∧ m ≠ [] ∧
      ∃ b rest, IsBlanks b ∧ s = m ++ (b ++ rest) ∧ args = operands rest := by
  obtain ⟨hm, hsolid, hne, a, b, rest, ha, hb, hs, hargs⟩ := eq_append_of_parts? h
  have hnil : a = [] := eq_nil_of_isBlanks ha (hs ▸ ht.start)
  rw [hnil, List.nil_append] at hs
  exact ⟨hm, hsolid, hne, b, rest, hb, hs, hargs⟩

/-- An instruction as it is written: a mnemonic, and its operands behind spaces. -/
theorem instructionText_eq (m : Text) (args : List Text) :
    ∃ n, (n = 0 ↔ args = []) ∧
      instructionText m args = m ++ (List.replicate n ' ' ++ join separator args) := by
  by_cases hargs : args = []
  · refine ⟨0, by simp [hargs], ?_⟩
    rw [instructionText, if_pos hargs, hargs]
    exact (List.append_nil m).symm
  · refine ⟨7 - m.length + 1, by simp [hargs], ?_⟩
    rw [instructionText, if_neg hargs, padRight, List.append_assoc, List.replicate_succ',
      List.append_assoc, List.singleton_append]

section

variable {m : Text} {args : List Text}

theorem isTrimmed_instructionText (hs : IsSolid m) (hne : m ≠ []) (hj : Joinable args) :
    IsTrimmed (instructionText m args) := by
  by_cases hargs : args = []
  · rw [instructionText, if_pos hargs]
    exact hs.isTrimmed
  · obtain ⟨n, -, htext⟩ := instructionText_eq m args
    obtain ⟨hjt, hjne⟩ := isTrimmed_join hj hargs
    rw [htext]
    exact hs.isTrimmed.append hne _ hjt hjne

theorem head?_instructionText (args : List Text) (hm : isMnemonic m = true) :
    ∃ c, (instructionText m args).head? = some c ∧ c ≠ '.' ∧ c ≠ '"' := by
  obtain ⟨n, -, htext⟩ := instructionText_eq m args
  obtain ⟨c, r, rfl, hdot, hquote⟩ := head?_mnemonic hm
  exact ⟨c, by rw [htext]; rfl, hdot, hquote⟩

/-- A mnemonic has no colon, and with operands there are spaces. -/
theorem isLabelForm_instructionText (hm : isMnemonic m = true)
    (ht : IsTrimmed (instructionText m args)) : isLabelForm (instructionText m args) = false := by
  by_cases hargs : args = []
  · rw [isLabelForm_of_isTrimmed ht, instructionText, if_pos hargs, Bool.and_eq_false_iff]
    refine .inl (beq_eq_false_iff_ne.2 fun hlast => ?_)
    exact mem_mnemonic hm (List.mem_of_getLast? hlast) (by decide)
  · obtain ⟨n, hn, htext⟩ := instructionText_eq m args
    obtain ⟨c, hhead, -, hquote⟩ := head?_instructionText args hm
    have hspace : ' ' ∈ instructionText m args := by
      rw [htext]
      simp [mt hn.1 hargs]
    exact isLabelForm_of_blank ht (by rw [hhead]; simpa using hquote) hspace (by decide)

/-- The mnemonic and the operands are found again. -/
theorem parts?_instructionText (hm : isMnemonic m = true) (hs : IsSolid m) (hne : m ≠ [])
    (hj : Joinable args) : parts? (instructionText m args) = some (m, args) := by
  obtain ⟨n, hn, htext⟩ := instructionText_eq m args
  rw [htext]
  exact parts?_append_join hm hs hne hj (isBlanks_replicate n) fun h =>
    hn.1 ((List.replicate_eq_nil_iff _).1 h)

/-- No comment begins inside a printed instruction. -/
theorem unmarked_instructionText (hm : isMnemonic m = true)
    (hu : Fragments.Unmarked t.commentMarkers .outside (join separator args)) :
    Fragments.Unmarked t.commentMarkers .outside (instructionText m args) := by
  obtain ⟨n, -, htext⟩ := instructionText_eq m args
  rw [htext]
  refine Fragments.unmarked_plain_append (fun c hc => isPlain_of_mem_mnemonic hm hc) ?_
  refine Fragments.unmarked_plain_append (fun c hc => ?_) hu
  rw [List.eq_of_mem_replicate hc]
  exact Target.isPlain (by decide)

end

/-- An instruction is written as a fragment that is read back. -/
theorem isWritten_instruction {loc : Option Loc} {m : Text} {args : List Text} (ht : IsTrimmed s)
    (hu : Fragments.Unmarked t.commentMarkers .outside s) (h : parts? s = some (m, args)) :
    IsWritten t (instructionText m args) (.instruction (instructionOf t loc id m args)) := by
  obtain ⟨hm, hsolid, hne, b, rest, hb, rfl, rfl⟩ := eq_append_of_isTrimmed ht h
  have hj := joinable_operands rest
  have hrest : Fragments.Unmarked t.commentMarkers .outside rest := by
    have hafter : Quoting.outside.after m = .outside :=
      Fragments.after_plain fun c hc => (isPlain_of_mem_mnemonic (t := t) hm hc).1
    have hbr := (Fragments.unmarked_append hu).2
    rw [hafter] at hbr
    have hr := (Fragments.unmarked_append hbr).2
    rwa [Fragments.after_blanks (by decide) hb] at hr
  have htrim := isTrimmed_instructionText hsolid hne hj
  have hunmarked := unmarked_instructionText hm (unmarked_join_operands (by decide) hrest)
  obtain ⟨c, hhead, hdot, -⟩ := head?_instructionText (operands rest) hm
  have hdirective : startsWith ['.'] (instructionText m (operands rest)) = false := by
    apply Bool.eq_false_iff.2
    intro hs
    rw [startsWith_dot_iff, hhead] at hs
    exact hdot (Option.some.inj hs)
  have htne : instructionText m (operands rest) ≠ [] := by
    intro he
    rw [he] at hhead
    cases hhead
  refine ⟨htrim, htne, hunmarked, fun loc' hc => ?_⟩
  have hloc : loc = loc' := hc
  rw [hloc]
  exact classify_of_parts? hdirective (isLabelForm_instructionText hm htrim)
    (opensComment_of_unmarked hunmarked htne) (parts?_instructionText hm hsolid hne hj)

/-! ## Every statement -/

/-- A label is written as it was read. -/
theorem eq_of_labelName? {name : Text} (ht : IsTrimmed s) (h : labelName? t s = some name) :
    s = name ++ [':'] := by
  have hform := isLabelForm_of_labelName? h
  rw [isLabelForm_of_isTrimmed ht, Bool.and_eq_true, beq_iff_eq] at hform
  obtain ⟨init, rfl⟩ := List.getLast?_eq_some_iff.1 hform.1
  unfold labelName? at h
  split at h
  · cases h
    rw [List.dropLast_concat]
  · cases h

theorem instructionOf_operands {loc : Option Loc} {m : Text} {args : List Text} :
    (instructionOf t loc id m args).operands = args := by
  have hid : args.modifyHead id = args := by cases args <;> rfl
  unfold instructionOf
  dsimp only
  split
  · exact hid
  · rfl

/-- What a fragment was classified as is written so that it is classified as the same. -/
theorem isWritten_of_classify {st : Statement} {loc : Option Loc} (hw : t.isWindows = false)
    (ht : IsTrimmed s) (hne : s ≠ []) (hu : Fragments.Unmarked t.commentMarkers .outside s)
    (hf : ∀ e, file? t s = .ok (some e) → '\\' ∉ s)
    (h : classify t s loc id = .ok (some st)) (hc : ∀ c, st ≠ .comment c) :
    IsWritten t (written st) st := by
  rcases classify_cases h with hd | ⟨-, ⟨name, hname, rfl⟩ | ⟨-, ⟨-, m, args, hp, rfl⟩ | rfl⟩⟩
  · obtain ⟨-, -, ⟨f, hfile, rfl⟩ | ⟨-, he⟩⟩ := directive?_cases hd
    · obtain ⟨hi, hn⟩ := isShort_of_file? hw hfile
      exact isWritten_file hw hi hn (isUnquoted_of_file? hw (hf f hfile) hfile).1
    · rcases directiveOr_cases t s with ⟨l, hl, hor⟩ | ⟨-, hor⟩
      · obtain ⟨hfile, hline, hcolumn, hn⟩ := isShort_of_loc? hl
        rw [he, hor]
        exact isWritten_loc hw hfile hline hcolumn hn
      · rw [hor] at he
        subst he
        exact ⟨ht, hne, hu, fun _ _ => classify_of_directive? hd⟩
  · have hs : s = written (.label name loc) := eq_of_labelName? ht hname
    rw [← hs]
    refine ⟨ht, hne, hu, fun loc' hcarries => ?_⟩
    have hloc : loc = loc' := hcarries
    rw [hloc]
    exact classify_of_labelName? hname
  · show IsWritten t (instructionText m (instructionOf t loc id m args).operands) _
    rw [instructionOf_operands]
    exact isWritten_instruction ht hu hp
  · exact absurd rfl (hc s)

end AsmLens.Listing
