import AsmLens.Proofs.Lists
import AsmLens.Proofs.Text.Pieces

/-!
# Trimmed text and words

A text is trimmed if it has no blank at either end; `trim` makes every text trimmed and leaves the
trimmed ones as they are. The words of a text are told by what stands between them: a blank ends a
word, and a run without blanks is one.
-/

namespace AsmLens.Text

/-- Blanks only. -/
def IsBlanks (s : Text) : Prop :=
  ∀ c ∈ s, isBlank c = true

/-- No blank anywhere. -/
def IsSolid (s : Text) : Prop :=
  ∀ c ∈ s, isBlank c = false

/-- No blank at either end. -/
structure IsTrimmed (s : Text) : Prop where
  start : ∀ c ∈ s.head?, isBlank c = false
  stop : ∀ c ∈ s.getLast?, isBlank c = false

theorem IsSolid.isTrimmed {s : Text} (h : IsSolid s) : IsTrimmed s :=
  ⟨fun c hc => h c (List.mem_of_head? hc), fun c hc => h c (List.mem_of_getLast? hc)⟩

/-- Two trimmed texts and whatever stands between them. -/
theorem IsTrimmed.append {a b : Text} (ha : IsTrimmed a) (hane : a ≠ []) (x : Text)
    (hb : IsTrimmed b) (hbne : b ≠ []) : IsTrimmed (a ++ (x ++ b)) where
  start c hc := by
    obtain ⟨d, a', rfl⟩ := List.exists_cons_of_ne_nil hane
    exact ha.start c hc
  stop c hc := by
    cases hl : b.getLast? with
    | none => exact absurd (List.getLast?_eq_none_iff.1 hl) hbne
    | some d =>
      rw [← List.append_assoc, List.getLast?_append, hl, Option.some_or] at hc
      exact hb.stop c (hl.trans hc)

/-! ## Trimming -/

theorem trimEnd_eq_self {s : Text} (h : ∀ c ∈ s.getLast?, isBlank c = false) : trimEnd s = s := by
  have hr : s.reverse.dropWhile isBlank = s.reverse :=
    dropWhile_eq_self_of_head fun c hc => h c (List.head?_reverse ▸ hc)
  rw [trimEnd, hr, List.reverse_reverse]

theorem trimEnd_append_of_blanks {b : Text} (hb : IsBlanks b) (s : Text) :
    trimEnd (s ++ b) = trimEnd s := by
  rw [trimEnd, List.reverse_append,
    List.dropWhile_append_of_pos fun c hc => hb c (List.mem_reverse.1 hc), trimEnd]

theorem trimStart_eq_self {s : Text} (h : ∀ c ∈ s.head?, isBlank c = false) :
    trimStart s = s :=
  dropWhile_eq_self_of_head h

theorem IsTrimmed.trim_eq {s : Text} (h : IsTrimmed s) : trim s = s := by
  rw [trim, trimStart_eq_self h.start, trimEnd_eq_self h.stop]

theorem trimStart_append_of_blanks {b : Text} (h : IsBlanks b) (s : Text) :
    trimStart (b ++ s) = trimStart s :=
  List.dropWhile_append_of_pos h

theorem trim_append_of_blanks {b : Text} (h : IsBlanks b) (s : Text) : trim (b ++ s) = trim s := by
  rw [trim, trimStart_append_of_blanks h, trim]

theorem isBlanks_replicate (n : Nat) : IsBlanks (List.replicate n ' ') := by
  intro c hc
  rw [List.eq_of_mem_replicate hc]
  decide

/-- A text is its end trimmed and blanks. -/
theorem trimEnd_append_blanks (s : Text) : ∃ b, IsBlanks b ∧ s = trimEnd s ++ b := by
  refine ⟨(s.reverse.takeWhile isBlank).reverse, ?_, ?_⟩
  · intro c hc
    exact List.all_eq_true.1 List.all_takeWhile c (List.mem_reverse.1 hc)
  · rw [trimEnd, ← List.reverse_append, List.takeWhile_append_dropWhile, List.reverse_reverse]

/-- A text is blanks and its start trimmed. -/
theorem blanks_append_trimStart (s : Text) : ∃ b, IsBlanks b ∧ s = b ++ trimStart s :=
  ⟨s.takeWhile isBlank, List.all_eq_true.1 List.all_takeWhile,
    List.takeWhile_append_dropWhile.symm⟩

/-- A text is its trimmed form between blanks. -/
theorem blanks_append_trim (s : Text) :
    ∃ a b, IsBlanks a ∧ IsBlanks b ∧ s = a ++ (trim s ++ b) := by
  obtain ⟨a, ha, hs⟩ := blanks_append_trimStart s
  obtain ⟨b, hb, ht⟩ := trimEnd_append_blanks (trimStart s)
  exact ⟨a, b, ha, hb, by rw [trim, ← ht, ← hs]⟩

theorem trimEnd_begins (s : Text) : trimEnd s <+: s := by
  obtain ⟨b, -, h⟩ := trimEnd_append_blanks s
  exact ⟨b, h.symm⟩

theorem getLast?_trimEnd {s : Text} : ∀ c ∈ (trimEnd s).getLast?, isBlank c = false := by
  intro c hc
  rw [trimEnd, List.getLast?_reverse] at hc
  exact eq_false_of_head?_dropWhile hc

theorem head?_of_begins {a s : Text} {c : Char} (h : a <+: s) (hc : a.head? = some c) :
    s.head? = some c := by
  obtain ⟨b, rfl⟩ := h
  rw [List.head?_append, hc, Option.some_or]

theorem isTrimmed_trim (s : Text) : IsTrimmed (trim s) where
  start _ hc := eq_false_of_head?_dropWhile (head?_of_begins (trimEnd_begins (trimStart s)) hc)
  stop := getLast?_trimEnd

theorem isTrimmed_trimEnd {s : Text} (h : ∀ c ∈ s.head?, isBlank c = false) :
    IsTrimmed (trimEnd s) where
  start c hc := h c (head?_of_begins (trimEnd_begins s) hc)
  stop := getLast?_trimEnd

theorem mem_of_mem_trim {s : Text} {c : Char} (h : c ∈ trim s) : c ∈ s := by
  obtain ⟨a, b, -, -, hs⟩ := blanks_append_trim s
  rw [hs]
  exact List.mem_append_right _ (List.mem_append_left _ h)

/-! ## Words -/

/-- Words are the pieces between blanks that are not empty. -/
theorem words_eq_pieces (s : Text) : words s = pieces isBlank (fun w => !w.isEmpty) s := rfl

/-- A blank ends a word. -/
theorem words_append_cons {c : Char} (hc : isBlank c = true) (x y : Text) :
    words (x ++ c :: y) = words x ++ words y :=
  pieces_append_cons hc x y

/-- A run without blanks is one word. -/
theorem words_of_solid {w : Text} (h : IsSolid w) (hne : w ≠ []) : words w = [w] :=
  pieces_of_isPiece ⟨by simpa using hne, h⟩

/-- A word in front of a blank is the first. -/
theorem words_solid_append {w : Text} {c : Char} (h : IsSolid w) (hne : w ≠ [])
    (hc : isBlank c = true) (s : Text) : words (w ++ c :: s) = w :: words s := by
  rw [words_append_cons hc, words_of_solid h hne, List.singleton_append]

/-- A word has no blanks and is not empty. -/
theorem isSolid_of_mem_words {s w : Text} (h : w ∈ words s) : IsSolid w ∧ w ≠ [] := by
  rw [words_eq_pieces] at h
  obtain ⟨hne, hw⟩ := isPiece_of_mem_pieces h
  exact ⟨hw, by simpa using hne⟩

theorem words_length_le_of_solid {w : Text} (h : IsSolid w) : (words w).length ≤ 1 := by
  cases w with
  | nil => simp [words]
  | cons c w => rw [words_of_solid h (List.cons_ne_nil _ _)]; simp

/-- The first word of a text that begins with no blank begins like the text. -/
theorem words_cons {c : Char} (hc : isBlank c = false) (s : Text) :
    ∃ w ws, words (c :: s) = (c :: w) :: ws := by
  cases hs : s.splitOnP isBlank with
  | nil => exact absurd hs (List.splitOnP_ne_nil _ _)
  | cons w ws =>
    refine ⟨w, ws.filter fun w => !w.isEmpty, ?_⟩
    rw [words, List.splitOnP_cons_eq_if_modifyHead, if_neg (by simp [hc]), hs,
      List.modifyHead_cons, List.filter_cons_of_pos (by simp)]

theorem words_nil : words [] = [] :=
  pieces_nil rfl

/-- The first word of what begins a text begins like the text. -/
theorem first_word_of_begins {c : Char} {a s w : Text} {ws : List Text} (hc : isBlank c = false)
    (hp : a <+: c :: s) (hw : words a = w :: ws) : ∃ v, w = c :: v := by
  cases a with
  | nil =>
    rw [words_nil] at hw
    cases hw
  | cons d a =>
    cases (List.cons_prefix_cons.1 hp).1
    obtain ⟨v, vs, hv⟩ := words_cons hc a
    exact ⟨v, (List.cons.inj (hw.symm.trans hv)).1⟩

/-! ## The first word -/

/-- There are no blanks before what begins with none. -/
theorem eq_nil_of_isBlanks {a s : Text} (ha : IsBlanks a)
    (h : ∀ c ∈ (a ++ s).head?, isBlank c = false) : a = [] := by
  cases a with
  | nil => rfl
  | cons c a => exact absurd ((ha c List.mem_cons_self).symm.trans (h c rfl)) (by decide)

/-- A text that begins with a word is the word, blanks and the rest. -/
theorem eq_append_of_firstWord? {s w u : Text} (h : firstWord? s = some (w, u)) :
    IsSolid w ∧ w ≠ [] ∧ ∃ a b, IsBlanks a ∧ IsBlanks b ∧ s = a ++ (w ++ (b ++ u)) := by
  obtain ⟨a, ha, hs⟩ := blanks_append_trimStart s
  unfold firstWord? at h
  split at h
  · cases h
  · rename_i hne
    cases h
    obtain ⟨b, hb, hd⟩ :=
      blanks_append_trimStart ((trimStart s).dropWhile fun c => !isBlank c)
    refine ⟨fun c hc => ?_, ?_, a, b, ha, hb, ?_⟩
    · have hall := List.all_eq_true.1 (List.all_takeWhile (p := fun c => !isBlank c)) c hc
      simpa using hall
    · cases ht : trimStart s with
      | nil => exact absurd ht hne
      | cons c r =>
        have hc : isBlank c = false := by
          apply eq_false_of_head?_dropWhile (l := s)
          rw [← trimStart, ht]
          rfl
        rw [List.takeWhile_cons_of_pos (by simp [hc])]
        exact List.cons_ne_nil _ _
    · rw [← hd, List.takeWhile_append_dropWhile]
      exact hs

/-- A word and what follows it behind blanks. -/
theorem firstWord?_append {w b u : Text} (hw : IsSolid w) (hne : w ≠ []) (hb : IsBlanks b)
    (hu : ∀ c ∈ u.head?, isBlank c = false) (hsep : b = [] → u = []) :
    firstWord? (w ++ (b ++ u)) = some (w, u) := by
  obtain ⟨c, r, rfl⟩ := List.exists_cons_of_ne_nil hne
  have hstart : trimStart (c :: r ++ (b ++ u)) = c :: r ++ (b ++ u) :=
    trimStart_eq_self fun d hd => by
      cases hd
      exact hw c List.mem_cons_self
  have hsolid : ∀ d ∈ c :: r, (!isBlank d) = true := fun d hd => by rw [hw d hd]; rfl
  have hrest : ∀ d ∈ (b ++ u).head?, (!isBlank d) = false := by
    cases b with
    | nil => simp [hsep rfl]
    | cons d b => simp [hb d List.mem_cons_self]
  rw [firstWord?, hstart]
  rw [List.cons_append]
  simp only
  rw [← List.cons_append, takeWhile_run hsolid hrest, dropWhile_run hsolid hrest,
    trimStart_append_of_blanks hb, trimStart_eq_self hu]

end AsmLens.Text
