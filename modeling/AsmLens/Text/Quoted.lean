import AsmLens.Text.Search

/-!
# Quoted text

Double quotes enclose a text in which a backslash protects the character after it, unless that is
a line feed. `quotedTexts` collects the enclosed texts from left to right, backslashes included; a
quote that opens none is skipped.
-/

namespace AsmLens.Text

/-- After an opening quote: the enclosed text and what follows the closing quote. -/
def quotedBody? : Text → Option (Text × Text)
  | [] => none
  | '"' :: s => some ([], s)
  | ['\\'] => none
  | '\\' :: c :: s =>
    if c = '\n' then none else (quotedBody? s).map fun (t, r) => ('\\' :: c :: t, r)
  | c :: s => (quotedBody? s).map fun (t, r) => (c :: t, r)

theorem length_of_quotedBody? {s t r : Text} (h : quotedBody? s = some (t, r)) :
    t.length + r.length + 1 = s.length := by
  fun_induction quotedBody? s generalizing t r with
  | case1 => simp at h
  | case2 s => simp only [Option.some.injEq, Prod.mk.injEq] at h; simp [← h.1, ← h.2]
  | case3 => simp at h
  | case4 => simp at h
  | case5 c s _ ih =>
    obtain ⟨p, hp, he⟩ := Option.map_eq_some_iff.1 h
    have := ih hp
    simp only [Prod.mk.injEq] at he
    simp only [← he.1, ← he.2, List.length_cons]
    omega
  | case6 c s _ _ _ ih =>
    obtain ⟨p, hp, he⟩ := Option.map_eq_some_iff.1 h
    have := ih hp
    simp only [Prod.mk.injEq] at he
    simp only [← he.1, ← he.2, List.length_cons]
    omega

/-- The texts that double quotes enclose, from left to right. -/
def quotedTexts : Text → List Text
  | [] => []
  | c :: s =>
    if c = '"' then
      match _h : quotedBody? s with
      | some (t, r) => t :: quotedTexts r
      | none => quotedTexts s
    else quotedTexts s
termination_by s => s.length
decreasing_by
  · have := length_of_quotedBody? _h; simp only [List.length_cons]; omega
  · simp
  · simp

end AsmLens.Text
