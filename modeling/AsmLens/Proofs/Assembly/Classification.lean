import AsmLens.Assembly.Classifier
import AsmLens.Proofs.Assembly.Fragments
import AsmLens.Proofs.Outcome

/-!
# What a fragment is classified as

Each classifier is inverted once: a file directive has at least three words of which the first is
the directive (`words_of_file?`), a label that does not begin with a quote has no blanks
(`isSolid_of_isLabelForm`), an instruction begins like a mnemonic (`parts?_of_head?`), and a
classified fragment is what its classifier says (`directive?_cases`, `classify_cases`). On trimmed
fragments a file declaration is therefore the same whether the fragment is classified or only asked
for a file (`classify_file_iff`).
-/

namespace AsmLens

open Text

namespace Statement

/-- The location that a label or an instruction carries is `l`. -/
def Carries (l : Option Loc) : Statement → Prop
  | label _ l' => l' = l
  | instruction i => i.loc = l
  | _ => True

end Statement

namespace Fragment

variable {t : Target} {s : Text}

/-! ## Labels -/

/-- In a trimmed text there is no line end to drop. -/
theorem dropNewline_of_isTrimmed (h : IsTrimmed s) : dropNewline s = s := by
  rw [dropNewline, if_neg]
  intro hl
  exact absurd (h.stop '\n' hl) (by decide)

/-- A trimmed text has the form of a label if a label name stands before a last colon. -/
theorem isLabelForm_of_isTrimmed (h : IsTrimmed s) :
    isLabelForm s = (s.getLast? == some ':' && isLabelName s.dropLast) := by
  rw [isLabelForm, dropNewline_of_isTrimmed h]

/-- A text is what stands before a line feed at its end, and that line feed if it has one. -/
theorem dropNewline_append_blanks (s : Text) : ∃ b, IsBlanks b ∧ s = dropNewline s ++ b := by
  by_cases h : s.getLast? = some '\n'
  · obtain ⟨r, rfl⟩ := List.getLast?_eq_some_iff.1 h
    refine ⟨['\n'], List.forall_mem_singleton.2 (by decide), ?_⟩
    rw [dropNewline, if_pos h, List.dropLast_concat]
  · refine ⟨[], List.forall_mem_nil _, ?_⟩
    rw [dropNewline, if_neg h, List.append_nil]

/-- A label that does not begin with a quote has no blanks, but for a line feed at its end. -/
theorem isSolid_dropNewline_of_isLabelForm (hq : s.head? ≠ some '"') (h : isLabelForm s = true) :
    IsSolid (dropNewline s) := by
  rw [isLabelForm, Bool.and_eq_true, beq_iff_eq] at h
  obtain ⟨hl, hn⟩ := h
  obtain ⟨b, -, hs⟩ := dropNewline_append_blanks s
  obtain ⟨name, hr⟩ := List.getLast?_eq_some_iff.1 hl
  rw [hr, List.dropLast_concat, isLabelName.eq_def] at hn
  have hname : IsSolid name := by
    split at hn
    · cases hn
    · rw [hs, hr] at hq
      exact absurd rfl hq
    · intro c hc
      have := List.all_eq_true.1 hn c hc
      simp only [Bool.and_eq_true, Bool.not_eq_true'] at this
      exact this.1
  rw [hr]
  intro c hc
  rcases List.mem_append.1 hc with hc | hc
  · exact hname c hc
  · rw [List.mem_singleton.1 hc]
    decide

/-- A label that does not begin with a quote has no blanks. -/
theorem isSolid_of_isLabelForm (ht : IsTrimmed s) (hq : s.head? ≠ some '"')
    (h : isLabelForm s = true) : IsSolid s := by
  have hsolid := isSolid_dropNewline_of_isLabelForm hq h
  rwa [dropNewline_of_isTrimmed ht] at hsolid

theorem startsWith_dot_iff : startsWith ['.'] s = true ↔ s.head? = some '.' := by
  cases s with
  | nil => simp [startsWith]
  | cons c s => simpa [startsWith] using eq_comm

theorem words_dropNewline (s : Text) : words (dropNewline s) = words s := by
  by_cases h : s.getLast? = some '\n'
  · obtain ⟨r, rfl⟩ := List.getLast?_eq_some_iff.1 h
    rw [dropNewline, if_pos h, List.dropLast_concat, words_append_cons (by decide), words_nil,
      List.append_nil]
  · rw [dropNewline, if_neg h]

/-- What begins with a full stop and has several words is no label. -/
theorem isLabelForm_of_words {v w : Text} {ws : List Text} (hs : startsWith ['.'] s = true)
    (hw : words s = v :: w :: ws) : isLabelForm s = false := by
  apply Bool.eq_false_iff.2
  intro hl
  have hsolid := isSolid_dropNewline_of_isLabelForm (by rw [startsWith_dot_iff.1 hs]; decide) hl
  have hlen := words_length_le_of_solid hsolid
  rw [words_dropNewline, hw] at hlen
  simp at hlen

theorem isLabelForm_of_labelName? {id : Text} (h : labelName? t s = some id) :
    isLabelForm s = true := by
  unfold labelName? at h
  split at h
  · rename_i hf
    exact (Bool.and_eq_true_iff.1 hf).1
  · cases h

/-! ## Comments -/

/-- A fragment in front of the first marker opens no comment. -/
theorem opensComment_of_unmarked (hu : Fragments.Unmarked t.commentMarkers .outside s)
    (hne : s ≠ []) : opensComment t s = false := by
  obtain ⟨c, r, rfl⟩ := List.exists_cons_of_ne_nil hne
  rw [opensComment, List.any_eq_false]
  intro m hm hs
  exact Bool.false_ne_true ((hu.1 rfl m hm).symm.trans hs)

/-- A mnemonic has no quote, marker or colon in it. -/
theorem mem_mnemonic {m : Text} {c : Char} (hm : isMnemonic m = true) (hc : c ∈ m) :
    c ∉ ['"', ';', '#', '/', '@', ':'] := by
  have hchar : (c.isAlpha || c == '_' || isWordChar c || c == '.') = true := by
    cases m with
    | nil => cases hm
    | cons d r =>
      rw [isMnemonic, Bool.and_eq_true] at hm
      rcases List.mem_cons.1 hc with rfl | hc
      · simp [hm.1]
      · have hd := List.all_eq_true.1 hm.2 c hc
        rw [Bool.or_eq_true] at hd
        rcases hd with hd | hd <;> simp [hd]
  simp only [List.mem_cons, List.not_mem_nil, or_false]
  rintro (rfl | rfl | rfl | rfl | rfl | rfl) <;> exact absurd hchar (by decide)

/-- A fragment whose first character is neither a blank nor begins a mnemonic is no instruction. -/
theorem parts?_of_head? {c : Char} (h : s.head? = some c) (hb : isBlank c = false)
    (hc : (c.isAlpha || c == '_') = false) : parts? s = none := by
  unfold parts?
  cases hw : firstWord? s with
  | none => rfl
  | some p =>
    obtain ⟨m, rest⟩ := p
    obtain ⟨-, hne, a, b, ha, -, rfl⟩ := eq_append_of_firstWord? hw
    have hanil : a = [] := eq_nil_of_isBlanks ha fun d hd => by
      cases h.symm.trans hd
      exact hb
    obtain ⟨d, r, rfl⟩ := List.exists_cons_of_ne_nil hne
    rw [hanil] at h
    cases h
    have hnot : isMnemonic (c :: r) = false := by rw [isMnemonic, hc, Bool.false_and]
    simp [hnot]

/-- What opens a comment begins with the first character of a marker. -/
theorem head?_of_opensComment (h : opensComment t s = true) :
    ∃ c ∈ [';', '#', '/', '@'], s.head? = some c := by
  rw [opensComment, List.any_eq_true] at h
  obtain ⟨marker, hmarker, hs⟩ := h
  have hbegins := List.isPrefixOf_iff_prefix.1 hs
  rcases Target.mem_commentMarkers hmarker with rfl | rfl | rfl | rfl
  · exact ⟨';', by decide, head?_of_begins hbegins rfl⟩
  · exact ⟨'#', by decide, head?_of_begins hbegins rfl⟩
  · exact ⟨'/', by decide, head?_of_begins hbegins rfl⟩
  · exact ⟨'@', by decide, head?_of_begins hbegins rfl⟩

/-- What opens a comment is no instruction, because no mnemonic begins like a comment. -/
theorem parts?_of_opensComment (h : opensComment t s = true) : parts? s = none := by
  obtain ⟨c, hc, hhead⟩ := head?_of_opensComment h
  have hother : isBlank c = false ∧ (c.isAlpha || c == '_') = false := by
    simp only [List.mem_cons, List.not_mem_nil, or_false] at hc
    rcases hc with rfl | rfl | rfl | rfl <;> decide
  exact parts?_of_head? hhead hother.1 hother.2

/-! ## Files -/

/-- Only a fragment of at least three words, the first of which is the directive, declares a file
or fails to. -/
theorem words_of_file? (h : file? t s ≠ .ok none) :
    ∃ index w ws, words s = t.fileDirective :: index :: w :: ws := by
  unfold file? at h
  split at h
  · rename_i name index w ws path more hw hq
    split at h
    · rename_i hc
      exact ⟨index, w, ws, by rw [hw, hc.1]⟩
    · exact absurd rfl h
  · exact absurd rfl h

theorem fileDirective_cons (t : Target) : ∃ w, t.fileDirective = '.' :: w := by
  unfold Target.fileDirective
  split
  · exact ⟨_, rfl⟩
  · exact ⟨_, rfl⟩

/-- A fragment that declares a file, or fails to, begins with a full stop. -/
theorem head?_of_file? (ht : IsTrimmed s) (h : file? t s ≠ .ok none) : s.head? = some '.' := by
  obtain ⟨index, w, ws, hw⟩ := words_of_file? h
  obtain ⟨d, hd⟩ := fileDirective_cons t
  cases s with
  | nil =>
    rw [words_nil] at hw
    cases hw
  | cons c s =>
    obtain ⟨v, hv⟩ := first_word_of_begins (ht.start c rfl) List.prefix_rfl hw
    rw [hd] at hv
    rw [List.head?_cons, (List.cons.inj hv).1]

/-- What is read as a file directive, well or not, has not the form of a label. -/
theorem isLabelForm_of_file? (ht : IsTrimmed s) (h : file? t s ≠ .ok none) :
    isLabelForm s = false := by
  obtain ⟨index, w, ws, hw⟩ := words_of_file? h
  exact isLabelForm_of_words (startsWith_dot_iff.2 (head?_of_file? ht h)) hw

/-- A file directive fails for its index only. -/
theorem eq_notNumber_of_file? {e : Failure} (h : file? t s = .error e) : e = .notNumber := by
  unfold file? at h
  split at h
  · split at h
    · split at h
      · cases h
        rfl
      · cases h
    · cases h
  · cases h

/-! ## Directives -/

/-- What a directive that is no file comes to. -/
def directiveOr (t : Target) (s : Text) : Statement :=
  match loc? t s with
  | some l => .loc l
  | none => .directive s

/-- A directive is that of a file, or else a location or any other. -/
theorem directive?_eq (h : startsWith ['.'] s = true) (hl : isLabelForm s = false) :
    directive? t s = (file? t s).map fun f => some (f.elim (directiveOr t s) .file) := by
  rw [directive?, if_pos (by rw [h, hl]; rfl), directiveOr]
  cases file? t s with
  | error e => rfl
  | ok f =>
    cases f with
    | some f => rfl
    | none => cases loc? t s <;> rfl

/-- Without a dot in front, or in the form of a label, there is no directive. -/
theorem directive?_eq_none (h : ¬(startsWith ['.'] s = true ∧ isLabelForm s = false)) :
    directive? t s = .ok none := by
  rw [directive?, if_neg]
  · rfl
  · rwa [Bool.and_eq_true, Bool.not_eq_true']

/-- The three kinds of directives. -/
theorem directive?_cases {st : Statement} (h : directive? t s = .ok (some st)) :
    startsWith ['.'] s = true ∧ isLabelForm s = false ∧
      ((∃ f, file? t s = .ok (some f) ∧ st = .file f) ∨
        file? t s = .ok none ∧ st = directiveOr t s) := by
  by_cases hd : startsWith ['.'] s = true ∧ isLabelForm s = false
  · rw [directive?_eq hd.1 hd.2] at h
    obtain ⟨f, hf, hst⟩ := map_eq_ok.1 h
    refine ⟨hd.1, hd.2, ?_⟩
    cases f with
    | some f => exact .inl ⟨f, hf, (Option.some.inj hst).symm⟩
    | none => exact .inr ⟨hf, (Option.some.inj hst).symm⟩
  · rw [directive?_eq_none hd] at h
    cases h

theorem directive?_of_file? {f : FileEntry} (ht : IsTrimmed s) (h : file? t s = .ok (some f)) :
    directive? t s = .ok (some (.file f)) := by
  have hn : file? t s ≠ .ok none := by rw [h]; simp
  rw [directive?_eq (startsWith_dot_iff.2 (head?_of_file? ht hn)) (isLabelForm_of_file? ht hn), h]
  rfl

/-- A directive fails as the file that it may declare does. -/
theorem directive?_eq_error_iff {e : Failure} :
    directive? t s = .error e ↔
      (startsWith ['.'] s = true ∧ isLabelForm s = false) ∧ file? t s = .error e := by
  by_cases hd : startsWith ['.'] s = true ∧ isLabelForm s = false
  · rw [directive?_eq hd.1 hd.2, map_eq_error]
    exact ⟨fun h => ⟨hd, h⟩, And.right⟩
  · rw [directive?_eq_none hd]
    constructor
    · intro h
      cases h
    · intro h
      exact absurd h.1 hd

theorem directiveOr_cases (t : Target) (s : Text) :
    (∃ l, loc? t s = some l ∧ directiveOr t s = .loc l) ∨
      loc? t s = none ∧ directiveOr t s = .directive s := by
  unfold directiveOr
  cases loc? t s with
  | some l => exact .inl ⟨l, rfl, rfl⟩
  | none => exact .inr ⟨rfl, rfl⟩

theorem isDirective_of_directive? {st : Statement} (h : directive? t s = .ok (some st)) :
    st.isDirective = true := by
  rcases (directive?_cases h).2.2 with ⟨f, -, rfl⟩ | ⟨-, rfl⟩
  · rfl
  · rcases directiveOr_cases t s with ⟨l, -, hl⟩ | ⟨-, hl⟩ <;> rw [hl] <;> rfl

/-! ## Every fragment -/

variable {loc : Option Loc} {rename : Text → Text}

/-- The instruction with the given mnemonic and operands. -/
def instructionOf (t : Target) (loc : Option Loc) (rename : Text → Text) (m : Text)
    (args : List Text) : Instruction :=
  let call := t.isCall m
  let args := if call then args.modifyHead rename else args
  ⟨m, args, loc, t.isJump m args, call⟩

/-- An instruction is its two parts, with the callee renamed. -/
theorem instruction?_eq_some_iff {st : Statement} :
    instruction? t s loc rename = some st ↔
      ∃ m args, parts? s = some (m, args) ∧
        st = .instruction (instructionOf t loc rename m args) := by
  rw [instruction?, Option.map_eq_some_iff]
  constructor
  · rintro ⟨⟨m, args⟩, hp, rfl⟩
    exact ⟨m, args, hp, rfl⟩
  · rintro ⟨m, args, hp, rfl⟩
    exact ⟨(m, args), hp, rfl⟩

/-- A fragment that opens no comment is a directive, a label or an instruction, in that order. -/
theorem classify_cases {st : Statement} (h : classify t s loc rename = .ok (some st)) :
    directive? t s = .ok (some st) ∨
      directive? t s = .ok none ∧
        ((∃ id, labelName? t s = some id ∧ st = .label id loc) ∨
          labelName? t s = none ∧
            ((opensComment t s = false ∧ ∃ m args, parts? s = some (m, args) ∧
                st = .instruction (instructionOf t loc rename m args)) ∨
              st = .comment s)) := by
  unfold classify at h
  obtain ⟨d, hd, h⟩ := bind_eq_ok.1 h
  cases d with
  | some d =>
    cases h
    exact .inl hd
  | none =>
    refine .inr ⟨hd, ?_⟩
    cases hl : labelName? t s with
    | some id =>
      simp only [label?, hl, Option.map_some] at h
      cases h
      exact .inl ⟨id, rfl, rfl⟩
    | none =>
      refine .inr ⟨rfl, ?_⟩
      simp only [label?, hl, Option.map_none] at h
      split at h
      · rename_i i hi
        cases h
        split at hi
        · cases hi
        · rename_i ho
          exact .inl ⟨by simpa using ho, instruction?_eq_some_iff.1 hi⟩
      · rw [pure_eq_ok, comment?] at h
        split at h
        · cases h
          exact .inr rfl
        · cases h

/-- What is no directive is a label, or else an instruction. -/
theorem statement?_of_directive?_none (h : directive? t s = .ok none) :
    statement? t s loc rename = .ok ((label? t s loc).or (instruction? t s loc rename)) := by
  rw [statement?, h]
  rfl

theorem label?_eq_some_iff {st : Statement} :
    label? t s loc = some st ↔ ∃ id, labelName? t s = some id ∧ st = .label id loc := by
  rw [label?, Option.map_eq_some_iff]
  simp only [eq_comm]

/-- A statement that is looked for among the others is no comment. -/
theorem ne_comment_of_statement? {st : Statement} (h : statement? t s loc rename = .ok (some st))
    (c : Text) : st ≠ .comment c := by
  rintro rfl
  obtain ⟨d, hd, h⟩ := bind_eq_ok.1 h
  cases d with
  | some d =>
    cases h
    cases isDirective_of_directive? hd
  | none =>
    rcases Option.or_eq_some_iff.1 (Except.ok.inj h) with hl | ⟨-, hi⟩
    · obtain ⟨id, -, he⟩ := label?_eq_some_iff.1 hl
      cases he
    · obtain ⟨m, args, -, he⟩ := instruction?_eq_some_iff.1 hi
      cases he

/-- Any fragment is classified as it is if it is known to be no comment, or else as a comment. -/
theorem classify_eq (t : Target) (s : Text) (loc : Option Loc) (rename : Text → Text) :
    classify t s loc rename =
      (statement? t s loc rename).map fun st => st.or (comment? t s) := by
  cases hd : directive? t s with
  | error e => rw [classify, statement?, hd]; rfl
  | ok d =>
    cases d with
    | some d => rw [classify, statement?, hd]; rfl
    | none =>
      rw [classify, statement?_of_directive?_none hd, hd, ok_bind, map_ok]
      cases hl : label? t s loc with
      | some l => rfl
      | none =>
        by_cases ho : opensComment t s = true
        · have hi : instruction? t s loc rename = none := by
            rw [instruction?, parts?_of_opensComment ho, Option.map_none]
          simp [ho, hi]
        · cases instruction? t s loc rename <;> simp [ho]

/-- A fragment is one of the other statements exactly if it is classified as that one. -/
theorem statement?_eq_some_iff {st : Statement} :
    statement? t s loc rename = .ok (some st) ↔
      classify t s loc rename = .ok (some st) ∧ ∀ c, st ≠ .comment c := by
  rw [classify_eq, map_eq_ok]
  constructor
  · intro h
    exact ⟨⟨_, h, Option.some_or⟩, ne_comment_of_statement? h⟩
  · rintro ⟨⟨x, hx, ho⟩, hc⟩
    rcases Option.or_eq_some_iff.1 ho with rfl | ⟨rfl, ho⟩
    · exact hx
    · unfold comment? at ho
      split at ho
      · cases ho
        exact absurd rfl (hc s)
      · cases ho

/-- A fragment that opens no comment is nothing if it is none of the other statements. -/
theorem statement?_eq_none_iff (ho : opensComment t s = false) :
    statement? t s loc rename = .ok none ↔ classify t s loc rename = .ok none := by
  have hc : comment? t s = none := by rw [comment?, if_neg (by simp [ho])]
  rw [classify_eq, map_eq_ok]
  simp [hc]

/-- A fragment fails as a statement if and only if it fails as a line. -/
theorem statement?_eq_error_iff {e : Failure} :
    statement? t s loc rename = .error e ↔ classify t s loc rename = .error e := by
  rw [classify_eq, map_eq_error]

theorem classify_of_directive? {st : Statement} (h : directive? t s = .ok (some st)) :
    classify t s loc rename = .ok (some st) := by
  rw [classify, h]
  rfl

theorem classify_of_labelName? {id : Text} (h : labelName? t s = some id) :
    classify t s loc rename = .ok (some (.label id loc)) := by
  have hd : directive? t s = .ok none :=
    directive?_eq_none fun hd => absurd ((isLabelForm_of_labelName? h).symm.trans hd.2) (by simp)
  rw [classify, hd, ok_bind]
  simp only [label?, h]
  rfl

/-- A fragment that is no directive, label or comment and has a mnemonic is an instruction. -/
theorem classify_of_parts? {m : Text} {args : List Text} (hd : startsWith ['.'] s = false)
    (hl : isLabelForm s = false) (ho : opensComment t s = false) (hp : parts? s = some (m, args)) :
    classify t s loc rename = .ok (some (.instruction (instructionOf t loc rename m args))) := by
  have hn : labelName? t s = none := by rw [labelName?, hl]; rfl
  rw [classify, directive?_eq_none (by simp [hd]), ok_bind]
  simp only [label?, hn, Option.map_none, ho]
  rw [if_neg (by simp), instruction?_eq_some_iff.2 ⟨m, args, hp, rfl⟩]
  rfl

/-- A statement carries the location it was read under. -/
theorem carries_of_classify {st : Statement} (h : classify t s loc rename = .ok (some st)) :
    st.Carries loc := by
  rcases classify_cases h with h | ⟨-, ⟨id, -, rfl⟩ | ⟨-, ⟨-, m, args, -, rfl⟩ | rfl⟩⟩
  · rcases (directive?_cases h).2.2 with ⟨f, -, rfl⟩ | ⟨-, rfl⟩
    · trivial
    · rcases directiveOr_cases t s with ⟨l, -, he⟩ | ⟨-, he⟩ <;> rw [he] <;> trivial
  · rfl
  · rfl
  · trivial

/-- Classifying a trimmed fragment finds the same file as asking for one. -/
theorem classify_file_iff {f : FileEntry} (ht : IsTrimmed s) :
    classify t s loc rename = .ok (some (.file f)) ↔ file? t s = .ok (some f) := by
  constructor
  · intro h
    rcases classify_cases h with h | ⟨-, ⟨id, -, he⟩ | ⟨-, ⟨-, m, args, -, he⟩ | he⟩⟩
    · rcases (directive?_cases h).2.2 with ⟨g, hg, he⟩ | ⟨-, he⟩
      · cases he
        exact hg
      · rcases directiveOr_cases t s with ⟨l, -, hl⟩ | ⟨-, hl⟩ <;> rw [hl] at he <;> cases he
    · cases he
    · cases he
    · cases he
  · intro h
    exact classify_of_directive? (directive?_of_file? ht h)

/-- Only a directive is classified as a location. -/
theorem classify_loc_iff {l : Loc} :
    classify t s loc rename = .ok (some (.loc l)) ↔ directive? t s = .ok (some (.loc l)) := by
  constructor
  · intro h
    rcases classify_cases h with h | ⟨-, ⟨id, -, he⟩ | ⟨-, ⟨-, m, args, -, he⟩ | he⟩⟩
    · exact h
    · cases he
    · cases he
    · cases he
  · exact classify_of_directive?

/-- Only directives fail. -/
theorem classify_eq_error_iff {e : Failure} :
    classify t s loc rename = .error e ↔ directive? t s = .error e := by
  constructor
  · intro h
    unfold classify at h
    rcases bind_eq_error.1 h with h | ⟨d, -, h⟩
    · exact h
    · cases d with
      | some d => cases h
      | none =>
        simp only [label?] at h
        split at h
        · cases h
        · split at h <;> cases h
  · intro h
    rw [classify, h]
    rfl

/-- A fragment fails only as a file directive. -/
theorem file?_of_classify_error {e : Failure} (h : classify t s loc rename = .error e) :
    file? t s = .error e :=
  (directive?_eq_error_iff.1 (classify_eq_error_iff.1 h)).2

/-- Classifying a trimmed fragment fails as asking for a file does. -/
theorem classify_error_iff_of_isTrimmed {e : Failure} (ht : IsTrimmed s) :
    classify t s loc rename = .error e ↔ file? t s = .error e := by
  rw [classify_eq_error_iff, directive?_eq_error_iff]
  refine ⟨And.right, fun h => ⟨?_, h⟩⟩
  have hn : file? t s ≠ .ok none := by rw [h]; simp
  exact ⟨startsWith_dot_iff.2 (head?_of_file? ht hn), isLabelForm_of_file? ht hn⟩

end Fragment

end AsmLens
