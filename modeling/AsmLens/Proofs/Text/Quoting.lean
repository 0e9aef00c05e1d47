import AsmLens.Proofs.Lists
import AsmLens.Text.Quoted

/-!
# Quoted texts

A quoted text is what may stand between two quotes, up to the quote that closes it: each quote in it
is protected (`IsEnclosed`, `quotedBody?_eq_some_iff`). So a text between two quotes is found again
as it is (`quotedTexts_of_quoted`). A text without quotes becomes one that may stand there when its
backslashes are doubled, and halving them undoes this. In a text without backslashes a quoted text
ends at the next quote, so the quoted texts have no quotes of their own, and taking the quotes off
again leaves them whole (`stripChar_enclosed`).
-/

namespace AsmLens.Text

/-- Neither a quote nor a backslash anywhere. -/
def IsUnquoted (s : Text) : Prop :=
  ∀ c ∈ s, c ≠ '"' ∧ c ≠ '\\'

theorem isUnquoted_nil : IsUnquoted [] :=
  fun _ h => absurd h List.not_mem_nil

theorem isUnquoted_cons_iff {c : Char} {s : Text} :
    IsUnquoted (c :: s) ↔ (c ≠ '"' ∧ c ≠ '\\') ∧ IsUnquoted s := by
  rw [IsUnquoted, List.forall_mem_cons, IsUnquoted]

theorem isUnquoted_of_notMem {s : Text} (hq : '"' ∉ s) (hb : '\\' ∉ s) : IsUnquoted s :=
  fun _ hc => ⟨fun he => hq (he ▸ hc), fun he => hb (he ▸ hc)⟩

/-- A character that is neither a quote nor a backslash is taken as it is. -/
theorem quotedBody?_cons {c : Char} (hq : c ≠ '"') (hb : c ≠ '\\') (s : Text) :
    quotedBody? (c :: s) = (quotedBody? s).map fun (t, r) => (c :: t, r) := by
  rw [quotedBody?.eq_def]
  split
  · rename_i h
    cases h
  · rename_i h
    exact absurd (List.cons.inj h).1 hq
  · rename_i h
    exact absurd (List.cons.inj h).1 hb
  · rename_i h
    exact absurd (List.cons.inj h).1 hb
  · rename_i h
    cases h
    rfl

/-! ## Between quotes -/

/-- What may stand between two quotes: a backslash protects the character after it, which may be a
quote but no line feed. -/
inductive IsEnclosed : Text → Prop where
  | nil : IsEnclosed []
  | plain {c : Char} {s : Text} (hq : c ≠ '"') (hb : c ≠ '\\') (hs : IsEnclosed s) :
    IsEnclosed (c :: s)
  | guarded {c : Char} {s : Text} (hn : c ≠ '\n') (hs : IsEnclosed s) :
    IsEnclosed ('\\' :: c :: s)

theorem IsUnquoted.isEnclosed {s : Text} (h : IsUnquoted s) : IsEnclosed s := by
  induction s with
  | nil => exact .nil
  | cons c s ih =>
    obtain ⟨⟨hq, hb⟩, hs⟩ := isUnquoted_cons_iff.1 h
    exact .plain hq hb (ih hs)

/-- The quoted text up to the quote that closes it. -/
theorem quotedBody?_append {p : Text} (hp : IsEnclosed p) (s : Text) :
    quotedBody? (p ++ '"' :: s) = some (p, s) := by
  induction hp with
  | nil => rfl
  | plain hq hb _ ih =>
    rw [List.cons_append, quotedBody?_cons hq hb, ih]
    rfl
  | guarded hn _ ih =>
    rw [List.cons_append, List.cons_append, quotedBody?, if_neg hn, ih]
    rfl

/-- A quoted body that is found ends at its first quote. -/
theorem isEnclosed_of_quotedBody? {s p r : Text} (h : quotedBody? s = some (p, r)) :
    IsEnclosed p ∧ s = p ++ '"' :: r := by
  fun_induction quotedBody? s generalizing p r with
  | case1 => cases h
  | case2 s =>
    cases h
    exact ⟨.nil, rfl⟩
  | case3 => cases h
  | case4 => cases h
  | case5 c s hn ih =>
    obtain ⟨⟨p', r'⟩, hp', he⟩ := Option.map_eq_some_iff.1 h
    cases he
    obtain ⟨hp, rfl⟩ := ih hp'
    exact ⟨.guarded hn hp, rfl⟩
  | case6 c s hq hlast hnext ih =>
    -- A backslash here would be the last character or protect the next one.
    have hb : c ≠ '\\' := by
      rintro rfl
      cases s with
      | nil => exact hlast rfl rfl
      | cons d s => exact hnext d s rfl rfl
    obtain ⟨⟨p', r'⟩, hp', he⟩ := Option.map_eq_some_iff.1 h
    cases he
    obtain ⟨hp, rfl⟩ := ih hp'
    exact ⟨.plain hq hb hp, rfl⟩

/-- A quoted text ends at the quote that closes it, and nowhere else. -/
theorem quotedBody?_eq_some_iff {s p r : Text} :
    quotedBody? s = some (p, r) ↔ IsEnclosed p ∧ s = p ++ '"' :: r := by
  constructor
  · exact isEnclosed_of_quotedBody?
  · rintro ⟨hp, rfl⟩
    exact quotedBody?_append hp r

/-- Each backslash is two. -/
def doubleBackslashes (s : Text) : Text :=
  s.flatMap fun c => if c = '\\' then ['\\', '\\'] else [c]

theorem doubleBackslashes_cons {c : Char} (hc : c ≠ '\\') (s : Text) :
    doubleBackslashes (c :: s) = c :: doubleBackslashes s := by
  rw [doubleBackslashes, List.flatMap_cons, if_neg hc]
  rfl

/-- Doubling backslashes is undone. -/
theorem halveBackslashes_doubleBackslashes (s : Text) :
    halveBackslashes (doubleBackslashes s) = s := by
  induction s with
  | nil => rfl
  | cons c s ih =>
    by_cases hc : c = '\\'
    · subst hc
      exact congrArg ('\\' :: ·) ih
    · rw [doubleBackslashes_cons hc, halveBackslashes.eq_3 _ _ fun _ h _ => hc h, ih]

/-- A text without quotes may stand between two once its backslashes are doubled. -/
theorem isEnclosed_doubleBackslashes {s : Text} (h : '"' ∉ s) :
    IsEnclosed (doubleBackslashes s) := by
  induction s with
  | nil => exact .nil
  | cons c s ih =>
    have hs : '"' ∉ s := fun hm => h (List.mem_cons_of_mem _ hm)
    have hq : c ≠ '"' := fun hc => h (hc ▸ List.mem_cons_self)
    by_cases hc : c = '\\'
    · subst hc
      exact .guarded (by decide) (ih hs)
    · rw [doubleBackslashes_cons hc]
      exact .plain hq hc (ih hs)

/-! ## All quoted texts -/

theorem quotedTexts_nil : quotedTexts [] = [] := by
  rw [quotedTexts]

theorem quotedTexts_cons {c : Char} (hc : c ≠ '"') (s : Text) :
    quotedTexts (c :: s) = quotedTexts s := by
  rw [quotedTexts, if_neg hc]

/-- At a quote with a body, the body is the first quoted text. -/
theorem quotedTexts_quote {s p r : Text} (h : quotedBody? s = some (p, r)) :
    quotedTexts ('"' :: s) = p :: quotedTexts r := by
  rw [quotedTexts, if_pos rfl]
  split
  · rename_i p' r' h'
    cases h.symm.trans h'
    rfl
  · rename_i h'
    cases h.symm.trans h'

/-- What stands before the first quote is skipped. -/
theorem quotedTexts_append {a : Text} (ha : '"' ∉ a) (s : Text) :
    quotedTexts (a ++ s) = quotedTexts s := by
  induction a with
  | nil => rfl
  | cons c a ih =>
    have hc : c ≠ '"' := fun he => ha (he ▸ List.mem_cons_self)
    rw [List.cons_append, quotedTexts_cons hc]
    exact ih fun hm => ha (List.mem_cons_of_mem _ hm)

/-- A text between two quotes is the quoted text. -/
theorem quotedTexts_of_quoted {a p : Text} (ha : '"' ∉ a) (hp : IsEnclosed p) :
    quotedTexts (a ++ '"' :: (p ++ ['"'])) = [p] := by
  rw [quotedTexts_append ha, quotedTexts_quote (quotedBody?_append hp []), quotedTexts_nil]

/-! ## No backslashes -/

/-- Without backslashes no quote is protected. -/
theorem IsEnclosed.isUnquoted {p : Text} (h : IsEnclosed p) (hb : '\\' ∉ p) : IsUnquoted p := by
  induction h with
  | nil => exact isUnquoted_nil
  | plain hq hc _ ih =>
    exact isUnquoted_cons_iff.2 ⟨⟨hq, hc⟩, ih fun hm => hb (List.mem_cons_of_mem _ hm)⟩
  | guarded _ _ => exact absurd List.mem_cons_self hb

/-- A quoted text of a text without backslashes ends at the first quote. -/
theorem eq_append_of_quotedBody? {s p r : Text} (hs : '\\' ∉ s) (h : quotedBody? s = some (p, r)) :
    IsUnquoted p ∧ s = p ++ '"' :: r := by
  obtain ⟨hp, rfl⟩ := quotedBody?_eq_some_iff.1 h
  exact ⟨hp.isUnquoted fun hm => hs (List.mem_append_left _ hm), rfl⟩

/-- The quoted texts of a text without backslashes have neither quotes nor backslashes, and all
their characters are from the text. -/
theorem isUnquoted_of_mem_quotedTexts {s p : Text} (hs : '\\' ∉ s) (h : p ∈ quotedTexts s) :
    IsUnquoted p ∧ ∀ c ∈ p, c ∈ s := by
  fun_induction quotedTexts s with
  | case1 => cases h
  | case2 s q r hq ih =>
    obtain ⟨hu, rfl⟩ := eq_append_of_quotedBody? (fun hm => hs (List.mem_cons_of_mem _ hm)) hq
    rcases List.mem_cons.1 h with rfl | h
    · exact ⟨hu, fun c hc => by simp [hc]⟩
    · obtain ⟨hp, hsub⟩ := ih (fun hm => hs (by simp [hm])) h
      exact ⟨hp, fun c hc => by simp [hsub c hc]⟩
  | case3 s hq ih =>
    obtain ⟨hp, hsub⟩ := ih (fun hm => hs (List.mem_cons_of_mem _ hm)) h
    exact ⟨hp, fun c hc => List.mem_cons_of_mem _ (hsub c hc)⟩
  | case4 c s hc ih =>
    obtain ⟨hp, hsub⟩ := ih (fun hm => hs (List.mem_cons_of_mem _ hm)) h
    exact ⟨hp, fun c hc => List.mem_cons_of_mem _ (hsub c hc)⟩

/-! ## Taking the quotes off -/

theorem dropWhile_of_notMem {c : Char} {s : Text} (h : c ∉ s) : s.dropWhile (· == c) = s := by
  apply dropWhile_eq_self_of_head
  intro d hd
  have hne : d ≠ c := fun he => h (he ▸ List.mem_of_head? hd)
  simpa using hne

/-- Where the character is not there, nothing is stripped. -/
theorem stripChar_eq_self {c : Char} {s : Text} (h : c ∉ s) : stripChar c s = s := by
  have hr : c ∉ s.reverse := fun hm => h (List.mem_reverse.1 hm)
  rw [stripChar, dropWhile_of_notMem h, dropWhile_of_notMem hr, List.reverse_reverse]

/-- One character at either end is taken off, and no more. -/
theorem stripChar_enclosed {c : Char} {s : Text} (h : c ∉ s) :
    stripChar c (c :: (s ++ [c])) = s := by
  have hfront : (c :: (s ++ [c])).dropWhile (· == c) = (s ++ [c]).dropWhile (· == c) :=
    List.dropWhile_cons_of_pos (by simp)
  cases s with
  | nil => simp [stripChar]
  | cons d s =>
    have hd : d ≠ c := fun he => h (he ▸ List.mem_cons_self)
    have hr : c ∉ (d :: s).reverse := fun hm => h (List.mem_reverse.1 hm)
    have hkeep : (d :: s ++ [c]).dropWhile (· == c) = d :: s ++ [c] :=
      List.dropWhile_cons_of_neg (by simpa using hd)
    rw [stripChar, hfront, hkeep, List.reverse_append, List.reverse_singleton,
      List.singleton_append, List.dropWhile_cons_of_pos (by simp), dropWhile_of_notMem hr,
      List.reverse_reverse]

end AsmLens.Text
