import AsmLens.Ir.Definition
import AsmLens.Proofs.Text.Quoting
import AsmLens.Proofs.Text.Trimming

/-!
# The symbol of a definition

A symbol is spelled as a text between quotes or as a run without blanks and opening brackets
(`IsQuoted`, `IsPlain`), with an opening bracket behind it. Where both begin, the quoted one is read
(`SpellsAt`). A line defines the symbol behind the first at sign that a spelling follows, without
the quotes (`definedSymbol?_eq_some_iff`). So a line that is written around a symbol defines exactly
that symbol, whatever stands behind it (`definedSymbol?_behind_first_at`).
-/

namespace AsmLens

open Text

namespace Ir

variable {s t v w y before : Text}

/-! ## Spellings -/

/-- A run that neither a blank nor an opening bracket interrupts. -/
structure IsPlain (w : Text) : Prop where
  ne_nil : w ≠ []
  solid : IsSolid w
  unopened : '(' ∉ w

/-- A text between two quotes. -/
def IsQuoted (w : Text) : Prop :=
  ∃ p, IsEnclosed p ∧ w = '"' :: (p ++ ['"'])

/-- `s` begins with `w` and an opening bracket. -/
def Heads (w s : Text) : Prop :=
  w ++ ['('] <+: s

/-- `s` begins with a symbol spelled `w`: a quoted one, or a plain one where no quoted one
begins. -/
inductive SpellsAt (s w : Text) : Prop where
  | quoted (head : Heads w s) (spelled : IsQuoted w)
  | plain (head : Heads w s) (spelled : IsPlain w) (unquoted : ∀ v, IsQuoted v → ¬ Heads v s)

theorem heads_append (w rest : Text) : Heads w (w ++ '(' :: rest) :=
  ⟨rest, by simp⟩

theorem Heads.exists_rest (h : Heads w s) : ∃ rest, s = w ++ '(' :: rest := by
  obtain ⟨rest, rfl⟩ := h
  exact ⟨rest, by simp⟩

/-- What may stand in a plain symbol. -/
def isPlainChar (c : Char) : Bool :=
  !isBlank c && c != '('

/-- The plain symbol at the start of a text. -/
def plainHere? (s : Text) : Option Text :=
  if (s.dropWhile isPlainChar).head? = some '(' && !(s.takeWhile isPlainChar).isEmpty then
    some (s.takeWhile isPlainChar)
  else none

theorem isPlainChar_iff {c : Char} : isPlainChar c = true ↔ isBlank c = false ∧ c ≠ '(' := by
  simp [isPlainChar]

theorem isPlain_iff : IsPlain w ↔ w ≠ [] ∧ ∀ c ∈ w, isPlainChar c = true := by
  constructor
  · intro h
    refine ⟨h.ne_nil, fun c hc => isPlainChar_iff.2 ⟨h.solid c hc, ?_⟩⟩
    rintro rfl
    exact h.unopened hc
  · rintro ⟨hne, hall⟩
    exact ⟨hne, fun c hc => (isPlainChar_iff.1 (hall c hc)).1,
      fun hc => (isPlainChar_iff.1 (hall _ hc)).2 rfl⟩

/-- A plain symbol ends at the first opening bracket, which no blank may precede. -/
theorem plainHere?_eq_some_iff : plainHere? s = some w ↔ IsPlain w ∧ Heads w s := by
  rw [isPlain_iff]
  constructor
  · intro h
    rw [plainHere?, Option.ite_none_right_eq_some] at h
    obtain ⟨hcond, hw⟩ := h
    simp only [Bool.and_eq_true, decide_eq_true_eq, Bool.not_eq_true',
      List.isEmpty_eq_false_iff] at hcond
    obtain ⟨hopen, hne⟩ := hcond
    obtain ⟨rest, hrest⟩ := List.head?_eq_some_iff.1 hopen
    cases hw
    refine ⟨⟨hne, List.all_eq_true.1 List.all_takeWhile⟩, rest, ?_⟩
    rw [List.append_assoc, List.singleton_append, ← hrest, List.takeWhile_append_dropWhile]
  · rintro ⟨⟨hne, hall⟩, hhead⟩
    obtain ⟨rest, rfl⟩ := hhead.exists_rest
    have hopen : ∀ c ∈ ('(' :: rest).head?, isPlainChar c = false := by simp [isPlainChar]
    simp [plainHere?, takeWhile_run hall hopen, dropWhile_run hall hopen, hne]

/-- A quoted name is tried first. -/
theorem symbolHere?_of_quoted (hw : IsQuoted w) (hhead : Heads w s) : symbolHere? s = some w := by
  obtain ⟨p, hp, rfl⟩ := hw
  obtain ⟨rest, rfl⟩ := hhead.exists_rest
  have hbody : quotedBody? (p ++ '"' :: '(' :: rest) = some (p, '(' :: rest) :=
    quotedBody?_append hp _
  simp [symbolHere?, hbody]

/-- A plain name is read where no quoted one is. -/
theorem symbolHere?_of_unquoted (h : ∀ v, IsQuoted v → ¬ Heads v s) :
    symbolHere? s = plainHere? s := by
  unfold symbolHere?
  split
  · split
    · rename_i r name rest hbody
      obtain ⟨hname, rfl⟩ := quotedBody?_eq_some_iff.1 hbody
      exact absurd ⟨rest, by simp⟩ (h _ ⟨name, hname, rfl⟩)
    · rfl
  · rfl

/-- What is read at the start of a text is the symbol spelled there. -/
theorem symbolHere?_eq_some_iff : symbolHere? s = some w ↔ SpellsAt s w := by
  constructor
  · intro h
    by_cases hq : ∃ v, IsQuoted v ∧ Heads v s
    · obtain ⟨v, hv, hhead⟩ := hq
      cases (symbolHere?_of_quoted hv hhead).symm.trans h
      exact .quoted hhead hv
    · have hno : ∀ v, IsQuoted v → ¬ Heads v s := fun v hv hhead => hq ⟨v, hv, hhead⟩
      rw [symbolHere?_of_unquoted hno] at h
      obtain ⟨hw, hhead⟩ := plainHere?_eq_some_iff.1 h
      exact .plain hhead hw hno
  · rintro (⟨hhead, hw⟩ | ⟨hhead, hw, hno⟩)
    · exact symbolHere?_of_quoted hw hhead
    · rw [symbolHere?_of_unquoted hno]
      exact plainHere?_eq_some_iff.2 ⟨hw, hhead⟩

/-- A text that begins with no quote spells no quoted symbol. -/
theorem not_heads_of_isQuoted (hs : s.head? ≠ some '"') (hv : IsQuoted v) : ¬ Heads v s := by
  rintro ⟨rest, rfl⟩
  obtain ⟨p, -, rfl⟩ := hv
  exact hs rfl

/-- A plain symbol without quotes is spelled as it is. -/
theorem IsPlain.spellsAt (hy : IsPlain y) (hquote : '"' ∉ y) (rest : Text) :
    SpellsAt (y ++ '(' :: rest) y := by
  refine .plain (heads_append y rest) hy fun v hv => not_heads_of_isQuoted ?_ hv
  -- The text begins like `y`, which has a first character, and that is no quote.
  obtain ⟨c, y, rfl⟩ := List.exists_cons_of_ne_nil hy.ne_nil
  intro hc
  cases hc
  exact hquote List.mem_cons_self

/-- A text between two quotes is spelled with them. -/
theorem spellsAt_quoted {p : Text} (hp : IsEnclosed p) (rest : Text) :
    SpellsAt ('"' :: (p ++ '"' :: '(' :: rest)) ('"' :: (p ++ ['"'])) :=
  .quoted ⟨rest, by simp⟩ ⟨p, hp, rfl⟩

/-! ## The first symbol -/

/-- The first symbol of `s` is spelled `w` and stands behind `before` and an at sign. -/
structure IsFirstSymbol (s before w : Text) : Prop where
  spells : ∃ t, s = before ++ '@' :: t ∧ SpellsAt t w
  first : ∀ b t v, s = b ++ '@' :: t → SpellsAt t v → before.length ≤ b.length

theorem isFirstSymbol_at (h : SpellsAt t w) : IsFirstSymbol ('@' :: t) [] w :=
  ⟨⟨t, rfl, h⟩, fun _ _ _ _ _ => Nat.zero_le _⟩

/-- One more character before the first symbol, behind which none is spelled. -/
theorem isFirstSymbol_cons_iff {c : Char} :
    IsFirstSymbol (c :: s) (c :: before) w ↔
      IsFirstSymbol s before w ∧ (c = '@' → ∀ v, ¬ SpellsAt s v) := by
  constructor
  · intro h
    refine ⟨⟨?_, fun b t v hs hv => ?_⟩, ?_⟩
    · obtain ⟨t, hs, ht⟩ := h.spells
      exact ⟨t, (List.cons.inj hs).2, ht⟩
    · exact Nat.le_of_succ_le_succ (h.first (c :: b) t v (congrArg (c :: ·) hs) hv)
    · rintro rfl v hv
      exact absurd (h.first [] s v rfl hv) (by simp)
  · rintro ⟨h, hc⟩
    refine ⟨?_, fun b t v hs hv => ?_⟩
    · obtain ⟨t, rfl, ht⟩ := h.spells
      exact ⟨t, rfl, ht⟩
    · cases b with
      | nil =>
        obtain ⟨rfl, rfl⟩ := List.cons.inj hs
        exact absurd hv (hc rfl v)
      | cons d b => exact Nat.succ_le_succ (h.first b t v (List.cons.inj hs).2 hv)

/-- Without an at sign before it, a symbol is the first one. -/
theorem isFirstSymbol_of_notMem (hbefore : '@' ∉ before) (h : SpellsAt t w) :
    IsFirstSymbol (before ++ '@' :: t) before w := by
  induction before with
  | nil => exact isFirstSymbol_at h
  | cons c before ih =>
    refine isFirstSymbol_cons_iff.2 ⟨ih fun hm => hbefore (List.mem_cons_of_mem _ hm), ?_⟩
    rintro rfl
    exact absurd List.mem_cons_self hbefore

theorem isFirstSymbol_of_symbolIn? (h : symbolIn? s = some w) :
    ∃ before, IsFirstSymbol s before w := by
  induction s with
  | nil => cases h
  | cons c s ih =>
    rw [symbolIn?] at h
    by_cases hc : c = '@'
    · subst hc
      rw [if_pos rfl, Option.or_eq_some_iff] at h
      obtain hhere | ⟨hnone, hlater⟩ := h
      · exact ⟨[], isFirstSymbol_at (symbolHere?_eq_some_iff.1 hhere)⟩
      · -- None begins at this sign, so the first one behind it is the first from here too.
        obtain ⟨before, hfirst⟩ := ih hlater
        refine ⟨'@' :: before, isFirstSymbol_cons_iff.2 ⟨hfirst, fun _ v hv => ?_⟩⟩
        cases hnone.symm.trans (symbolHere?_eq_some_iff.2 hv)
    · rw [if_neg hc] at h
      obtain ⟨before, hfirst⟩ := ih h
      exact ⟨c :: before, isFirstSymbol_cons_iff.2 ⟨hfirst, fun he => absurd he hc⟩⟩

theorem IsFirstSymbol.symbolIn?_eq (h : IsFirstSymbol s before w) : symbolIn? s = some w := by
  induction before generalizing s with
  | nil =>
    obtain ⟨t, rfl, ht⟩ := h.spells
    rw [List.nil_append, symbolIn?, if_pos rfl, symbolHere?_eq_some_iff.2 ht, Option.some_or]
  | cons c before ih =>
    obtain ⟨t, rfl, -⟩ := h.spells
    obtain ⟨htail, hc⟩ := isFirstSymbol_cons_iff.1 h
    rw [List.cons_append, symbolIn?]
    split
    · rename_i hat
      have hnone : symbolHere? (before ++ '@' :: t) = none :=
        Option.eq_none_iff_forall_ne_some.2 fun v hv =>
          hc hat v (symbolHere?_eq_some_iff.1 hv)
      rw [hnone, Option.none_or]
      exact ih htail
    · exact ih htail

/-- What is read in a text is its first symbol. -/
theorem symbolIn?_eq_some_iff : symbolIn? s = some w ↔ ∃ before, IsFirstSymbol s before w := by
  constructor
  · exact isFirstSymbol_of_symbolIn?
  · rintro ⟨before, h⟩
    exact h.symbolIn?_eq

/-- A line that begins with the keyword defines its first symbol, and no other line defines one. -/
theorem definedSymbol?_eq_some_iff {line : Text} :
    definedSymbol? line = some y ↔
      keyword <+: line ∧ ∃ before w, IsFirstSymbol line before w ∧ stripChar '"' w = y := by
  rw [definedSymbol?, Option.ite_none_right_eq_some, startsWith, List.isPrefixOf_iff_prefix,
    Option.map_eq_some_iff]
  simp only [symbolIn?_eq_some_iff]
  constructor
  · rintro ⟨hkey, w, ⟨before, h⟩, hy⟩
    exact ⟨hkey, before, w, h, hy⟩
  · rintro ⟨hkey, before, w, h, hy⟩
    exact ⟨hkey, w, ⟨before, h⟩, hy⟩

/-- **The symbol that a line is written around.** Behind the keyword and the first at sign of a
line, a symbol without quotes that an opening bracket follows is the one that the line defines: as
it stands if it has no blanks and no opening brackets, and between quotes whatever it has but
backslashes. Neither what is in it nor what follows the bracket makes the line define another. -/
theorem definedSymbol?_behind_first_at {pre y : Text} (hkey : keyword <+: pre) (hat : '@' ∉ pre)
    (hquote : '"' ∉ y) (rest : Text) :
    (IsPlain y → definedSymbol? (pre ++ '@' :: (y ++ '(' :: rest)) = some y) ∧
      ('\\' ∉ y → definedSymbol? (pre ++ '@' :: '"' :: (y ++ '"' :: '(' :: rest)) = some y) := by
  constructor
  · intro hy
    have hspells : SpellsAt (y ++ '(' :: rest) y := hy.spellsAt hquote rest
    exact definedSymbol?_eq_some_iff.2 ⟨hkey.trans (List.prefix_append _ _), pre, y,
      isFirstSymbol_of_notMem hat hspells, stripChar_eq_self hquote⟩
  · intro hbackslash
    have hy : IsUnquoted y := isUnquoted_of_notMem hquote hbackslash
    have hspells : SpellsAt ('"' :: (y ++ '"' :: '(' :: rest)) ('"' :: (y ++ ['"'])) :=
      spellsAt_quoted hy.isEnclosed rest
    exact definedSymbol?_eq_some_iff.2 ⟨hkey.trans (List.prefix_append _ _), pre, _,
      isFirstSymbol_of_notMem hat hspells, stripChar_enclosed hquote⟩

/-- A plain symbol with an at sign and a backslash, a quoted one with blanks, brackets and an at
sign, and the empty one, each before a rest that looks like a symbol again. -/
theorem definedSymbol?_behind_first_at_of_generics :
    let pre := "define internal fastcc void ".toList
    let plain := "_f\\01@v1".toList
    let quoted := "<A (B) as C>::f@\tg (".toList
    let rest := "ptr @g(), ptr @\"h\"(i8)) \x7b".toList
    keyword <+: pre ∧ '@' ∉ pre ∧ '"' ∉ plain ∧ IsPlain plain ∧ '"' ∉ quoted ∧ '\\' ∉ quoted ∧
      definedSymbol? (pre ++ '@' :: (plain ++ '(' :: rest)) = some plain ∧
      definedSymbol? (pre ++ '@' :: '"' :: (quoted ++ '"' :: '(' :: rest)) = some quoted ∧
      definedSymbol? (pre ++ '@' :: '"' :: ([] ++ '"' :: '(' :: rest)) = some [] := by
  intro pre plain quoted rest
  have hkey : keyword <+: pre := by decide +kernel
  have hat : '@' ∉ pre := by decide +kernel
  have hplain : '"' ∉ plain := by decide +kernel
  have hrun : IsPlain plain :=
    isPlain_iff.2 ⟨by decide +kernel, List.all_eq_true.1 (by decide +kernel)⟩
  have hquoted : '"' ∉ quoted := by decide +kernel
  have hbackslash : '\\' ∉ quoted := by decide +kernel
  exact ⟨hkey, hat, hplain, hrun, hquoted, hbackslash,
    (definedSymbol?_behind_first_at hkey hat hplain rest).1 hrun,
    (definedSymbol?_behind_first_at hkey hat hquoted rest).2 hbackslash,
    (definedSymbol?_behind_first_at hkey hat List.not_mem_nil rest).2 List.not_mem_nil⟩

end Ir

end AsmLens
