import AsmLens.Json.Printer
import AsmLens.Proofs.Json.CodePoint

/-!
# Strings written and read

A joined string is read back from its escaped code points, whatever comes after the closing quote
(`stringBody_escaped`), because each code point is: a unit from its four digits, and a character
outside the first plane from the two units of its pair. So a quoted string is told apart from what
follows it (`quote_append_inj`). What is written is visible (`isVisible_of_mem_quote`).
-/

namespace AsmLens

open Text

namespace Text

/-- An ASCII character that is seen, or the space. -/
def IsVisible (c : Char) : Prop :=
  0x20 ≤ c.toNat ∧ c.toNat < 0x7f

instance : DecidablePred IsVisible :=
  fun c => inferInstanceAs (Decidable (0x20 ≤ c.toNat ∧ c.toNat < 0x7f))

/-! ## Hexadecimal digits -/

theorem hex_one {n : Nat} (h : n < 16) : hex 1 n = [Nat.digitChar n] := by
  rw [hex, Nat.toDigits_of_lt_base h]
  rfl

/-- The last digit is split off. -/
theorem hex_succ {width : Nat} (h : 0 < width) (n : Nat) :
    hex (width + 1) n = hex width (n / 16) ++ [Nat.digitChar (n % 16)] := by
  unfold hex
  dsimp only
  rcases Nat.lt_or_ge n 16 with hn | hn
  -- A single digit leaves a zero, which is one of those that fill up.
  · obtain ⟨w, rfl⟩ := Nat.exists_eq_add_one.2 h
    rw [Nat.toDigits_of_lt_base hn, Nat.div_eq_of_lt hn, Nat.mod_eq_of_lt hn,
      Nat.toDigits_of_lt_base (by decide : 0 < 16)]
    show List.replicate (w + 1) '0' ++ _ = List.replicate w '0' ++ ['0'] ++ _
    rw [List.replicate_succ']
  · rw [Nat.toDigits_of_base_le (by decide) hn]
    simp

/-- The four digits of a UTF-16 unit. -/
theorem hex_four {n : Nat} (h : n < 0x10000) :
    hex 4 n = [Nat.digitChar (n / 16 / 16 / 16), Nat.digitChar (n / 16 / 16 % 16),
      Nat.digitChar (n / 16 % 16), Nat.digitChar (n % 16)] := by
  rw [hex_succ (by decide), hex_succ (by decide), hex_succ (by decide), hex_one (by omega)]
  rfl

theorem isVisible_digitChar {d : Nat} (h : d < 16) : IsVisible (Nat.digitChar d) := by
  revert d
  decide

end Text

namespace Json

/-! ## Units -/

theorem hexValue?_digitChar {d : Nat} (h : d < 16) : hexValue? (Nat.digitChar d) = some d := by
  revert d
  decide

/-- A unit is read from its digits if something follows them. -/
theorem unit?_hex {n : Nat} (h : n < 0x10000) {s : Text} (hs : s ≠ []) :
    unit? (hex 4 n ++ s) = some n := by
  obtain ⟨c, s, rfl⟩ := List.exists_cons_of_ne_nil hs
  rw [hex_four h]
  simp only [List.cons_append, List.nil_append, unit?]
  rw [hexValue?_digitChar (by omega), hexValue?_digitChar (by omega),
    hexValue?_digitChar (by omega), hexValue?_digitChar (by omega)]
  simp only [Option.bind_eq_bind, Option.bind_some, Option.pure_def, Option.some.injEq]
  omega

theorem unitEscape_append (n : Nat) (s : Text) :
    unitEscape n ++ s = '\\' :: 'u' :: (hex 4 n ++ s) := rfl

/-- A code unit is written with four digits. -/
theorem length_hex {n : Nat} (h : n < 0x10000) : (hex 4 n).length = 4 := by
  rw [hex_four h]
  rfl

/-- What a code point of a string is written as: a letter behind a backslash, itself, or one unit or
two. -/
inductive Escapes : CodePoint → Text → Prop where
  | letter {c e : Char} (h : escaped? e = some c) (seen : IsVisible e) :
    Escapes (.char c) ['\\', e]
  | plain {c : Char} (quote : c ≠ '"') (slash : c ≠ '\\') (seen : IsVisible c) :
    Escapes (.char c) [c]
  | unit {n : Nat} (h : n < 0x10000) : Escapes (.ofUnit n) (unitEscape n)
  | pair {c : Char} (h : 0x10000 ≤ c.toNat) :
    Escapes (.char c) (unitEscape (0xd800 + (c.toNat - 0x10000) / 0x400)
      ++ unitEscape (0xdc00 + (c.toNat - 0x10000) % 0x400))

/-- Each character is written in one of the ways that are read back. -/
theorem escapes_escapeChar (c : Char) : Escapes (.char c) (escapeChar c) := by
  by_cases hletter : c ∈ ['"', '\\', '\n', '\r', '\t', '\x08', '\x0c']
  · simp only [List.mem_cons, List.not_mem_nil, or_false] at hletter
    rcases hletter with rfl | rfl | rfl | rfl | rfl | rfl | rfl
    all_goals exact .letter rfl (by decide)
  · simp only [List.mem_cons, List.not_mem_nil, or_false, not_or] at hletter
    obtain ⟨hquote, hslash, hfeed, hreturn, htab, hback, hform⟩ := hletter
    have hback : c.toNat ≠ 0x8 := fun h => hback (Char.toNat_inj.1 h)
    have hform : c.toNat ≠ 0xc := fun h => hform (Char.toNat_inj.1 h)
    rw [escapeChar, if_neg hquote, if_neg hslash, if_neg hfeed, if_neg hreturn, if_neg htab,
      if_neg hback, if_neg hform]
    split
    · rename_i hc
      exact .plain hquote hslash hc
    split
    · rename_i hc
      exact CodePoint.ofUnit_char c ▸ .unit hc
    · rename_i hc
      exact .pair (Nat.le_of_not_lt hc)

theorem escapes_escapePoint (p : CodePoint) : Escapes p (escapePoint p) := by
  cases p with
  | char c => exact escapes_escapeChar c
  | half n =>
    rw [escapePoint, ← CodePoint.ofUnit_half]
    exact .unit (by omega)

theorem escape_letter {c e : Char} (h : escaped? e = some c) (s : Text) :
    escape (e :: s) = .ok (.char c, 1) := by
  unfold escape
  split
  · rename_i he
    cases he
  · rename_i he
    cases he
    cases h
  · rename_i he
    cases he
    rw [h]

/-- A unit that is not joined with the next one. -/
theorem escape_unit {n : Nat} (h : n < 0x10000) {s : Text} (hs : s ≠ [])
    (halone : isHigh n = true → lowUnit? s = none) :
    escape ('u' :: (hex 4 n ++ s)) = .ok (.ofUnit n, 5) := by
  have hnext : (if isHigh n then lowUnit? ((hex 4 n ++ s).drop 4) else none) = none := by
    rw [List.drop_left' (length_hex h)]
    split
    · rename_i hhigh
      exact halone hhigh
    · rfl
  simp only [escape, unit?_hex h hs, hnext]

/-- A character outside the first plane is a pair of units. -/
theorem escape_pair {c : Char} (h : 0x10000 ≤ c.toNat) {s : Text} (hs : s ≠ []) :
    escape ('u' :: (hex 4 (0xd800 + (c.toNat - 0x10000) / 0x400)
        ++ '\\' :: 'u' :: (hex 4 (0xdc00 + (c.toNat - 0x10000) % 0x400) ++ s))) =
      .ok (.char c, 11) := by
  have hcases := toNat_cases c
  obtain ⟨n, hn⟩ : ∃ n, n = 0xd800 + (c.toNat - 0x10000) / 0x400 := ⟨_, rfl⟩
  obtain ⟨m, hm⟩ : ∃ m, m = 0xdc00 + (c.toNat - 0x10000) % 0x400 := ⟨_, rfl⟩
  have hhigh : isHigh n = true := by
    simp only [isHigh, Bool.and_eq_true, decide_eq_true_eq]
    omega
  have hlow : isLow m = true := by
    simp only [isLow, Bool.and_eq_true, decide_eq_true_eq]
    omega
  have hsum : 0x10000 + (n - 0xd800) * 0x400 + (m - 0xdc00) = c.toNat := by omega
  have hdrop : (hex 4 n ++ '\\' :: 'u' :: (hex 4 m ++ s)).drop 4 =
      '\\' :: 'u' :: (hex 4 m ++ s) :=
    List.drop_left' (length_hex (by omega))
  have hpair : lowUnit? ('\\' :: 'u' :: (hex 4 m ++ s)) = some m := by
    rw [lowUnit?, unit?_hex (by omega) hs]
    simp [hlow]
  rw [← hn, ← hm]
  simp only [escape, unit?_hex (show n < 0x10000 by omega) (List.cons_ne_nil _ _), hhigh, if_true,
    hdrop, hpair, hsum, Char.ofNat_toNat]

/-! ## Strings -/

theorem stringBody_nil (start : Nat) : stringBody start [] = .error ⟨.openString, start⟩ := by
  rw [stringBody]

variable {start n : Nat} {c : Char} {p : CodePoint} {s r e : Text} {t u : Str}

theorem stringBody_quote : stringBody start ('"' :: r) = .ok ([], r) := by
  rw [stringBody, if_pos rfl]

/-- A character that needs no escape. -/
theorem stringBody_cons (hquote : c ≠ '"') (hslash : c ≠ '\\') (hc : 0x20 ≤ c.toNat)
    (h : stringBody start s = .ok (t, r)) : stringBody start (c :: s) = .ok (.char c :: t, r) := by
  rw [stringBody, if_neg hquote, if_neg hslash, if_neg (by omega), h]
  rfl

/-- A code point behind a backslash. -/
theorem stringBody_escape (he : escape s = .ok (p, n))
    (h : stringBody start (s.drop n) = .ok (t, r)) :
    stringBody start ('\\' :: s) = .ok (p :: t, r) := by
  rw [stringBody, if_neg (by decide), if_pos rfl, he]
  dsimp only
  rw [h]
  rfl

/-- A code point is read from what it is written as, unless it is joined with the next one. -/
theorem Escapes.stringBody (he : Escapes p e) (h : stringBody start s = .ok (t, r))
    (halone : p.IsHigh → lowUnit? s = none) : stringBody start (e ++ s) = .ok (p :: t, r) := by
  have hs : s ≠ [] := by
    rintro rfl
    cases (stringBody_nil start).symm.trans h
  cases he with
  | letter hletter => exact stringBody_escape (escape_letter hletter s) h
  | plain hquote hslash hc => exact stringBody_cons hquote hslash hc.1 h
  | unit hn =>
    rw [CodePoint.isHigh_ofUnit] at halone
    rw [unitEscape_append]
    refine stringBody_escape (escape_unit hn hs halone) ?_
    rwa [List.drop_succ_cons, List.drop_left' (length_hex hn)]
  | @pair c hc =>
    have hcases := toNat_cases c
    have hhigh := length_hex (show 0xd800 + (c.toNat - 0x10000) / 0x400 < 0x10000 by omega)
    have hlow := length_hex (show 0xdc00 + (c.toNat - 0x10000) % 0x400 < 0x10000 by omega)
    rw [List.append_assoc, unitEscape_append, unitEscape_append]
    refine stringBody_escape (escape_pair hc hs) ?_
    rwa [List.drop_succ_cons, List.drop_append, hhigh, List.drop_eq_nil_of_le (by omega),
      List.nil_append, List.drop_succ_cons, List.drop_succ_cons, List.drop_left' hlow]

theorem lowUnit?_unitEscape {n : Nat} (h : n < 0x10000) (hlow : isLow n = false) (hs : s ≠ []) :
    lowUnit? (unitEscape n ++ s) = none := by
  rw [unitEscape_append, lowUnit?, unit?_hex h hs]
  simp [hlow]

/-- What is not the second half of a pair is not written as one. -/
theorem Escapes.lowUnit? (he : Escapes p e) (hp : ¬ p.IsLow) (hs : s ≠ []) :
    lowUnit? (e ++ s) = none := by
  cases he with
  | letter hletter =>
    unfold Json.lowUnit?
    split
    · rename_i hu
      cases hu
      cases hletter
    · rfl
  | plain _ hslash =>
    unfold Json.lowUnit?
    split
    · rename_i hu
      exact absurd (List.cons.inj hu).1 hslash
    · rfl
  | unit hn =>
    rw [CodePoint.isLow_ofUnit, Bool.not_eq_true] at hp
    exact lowUnit?_unitEscape hn hp hs
  | @pair c hc =>
    have hcases := toNat_cases c
    rw [List.append_assoc]
    refine lowUnit?_unitEscape (by omega) ?_ (List.cons_ne_nil _ _)
    simp only [isLow, Bool.and_eq_false_iff, decide_eq_false_iff_not]
    omega

/-- **A joined string is read back.** -/
theorem stringBody_escaped (h : t.IsJoined) :
    stringBody start (t.flatMap escapePoint ++ '"' :: r) = .ok (t, r) := by
  induction t with
  | nil => exact stringBody_quote
  | cons p t ih =>
    obtain ⟨hp, ht⟩ := Str.isJoined_cons_iff.1 h
    rw [List.flatMap_cons, List.append_assoc]
    refine (escapes_escapePoint p).stringBody (ih ht) fun hhigh => ?_
    -- Behind the high half stands no low one, so nothing is joined.
    cases t with
    | nil => rfl
    | cons q t =>
      rw [List.flatMap_cons, List.append_assoc]
      exact (escapes_escapePoint q).lowUnit? (hp hhigh q rfl) (by simp)

/-- A quoted string is told apart from what comes after it. -/
theorem quote_append_inj {r' : Text} (ht : t.IsJoined) (hu : u.IsJoined)
    (h : quote t ++ r = quote u ++ r') : t = u ∧ r = r' := by
  have hbody : ∀ (t : Str) (r : Text), (quote t ++ r).tail = t.flatMap escapePoint ++ '"' :: r := by
    simp [quote]
  have hread : stringBody 0 (quote t ++ r).tail = .ok (u, r') := by
    rw [h, hbody, stringBody_escaped hu]
  rw [hbody, stringBody_escaped ht] at hread
  cases hread
  exact ⟨rfl, rfl⟩

/-! ## What is seen -/

theorem isVisible_of_mem_unitEscape (h : n < 0x10000) {d : Char} (hd : d ∈ unitEscape n) :
    IsVisible d := by
  have hdigit : ∀ k, IsVisible (Nat.digitChar (k % 16)) := fun k =>
    isVisible_digitChar (Nat.mod_lt k (by decide))
  rw [unitEscape, hex_four h] at hd
  simp only [List.mem_cons, List.not_mem_nil, or_false] at hd
  rcases hd with rfl | rfl | rfl | rfl | rfl | rfl
  · decide
  · decide
  · exact isVisible_digitChar (by omega)
  · exact hdigit _
  · exact hdigit _
  · exact hdigit _

/-- What a code point is written as can be seen. -/
theorem Escapes.isVisible (he : Escapes p e) : ∀ d ∈ e, IsVisible d := by
  intro d hd
  cases he with
  | letter h seen =>
    rcases List.mem_cons.1 hd with rfl | hd
    · decide
    · exact List.mem_singleton.1 hd ▸ seen
  | plain quote slash seen => exact List.mem_singleton.1 hd ▸ seen
  | unit hc => exact isVisible_of_mem_unitEscape hc hd
  | @pair c hc =>
    have hcases := toNat_cases c
    rcases List.mem_append.1 hd with hd | hd
    · exact isVisible_of_mem_unitEscape (by omega) hd
    · exact isVisible_of_mem_unitEscape (by omega) hd

/-- A quoted string holds visible characters only. -/
theorem isVisible_of_mem_quote {d : Char} (hd : d ∈ quote t) : IsVisible d := by
  rw [quote, List.cons_append, List.mem_cons, List.mem_append, List.mem_flatMap,
    List.mem_singleton] at hd
  rcases hd with rfl | ⟨p, -, hd⟩ | rfl
  · decide
  · exact (escapes_escapePoint p).isVisible _ hd
  · decide

end Json

end AsmLens
