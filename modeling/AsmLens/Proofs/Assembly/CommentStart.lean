import AsmLens.Proofs.Assembly.Fragments

/-!
# Where a comment begins

A comment begins at the first marker outside double quotes (`IsFirstMarker`). A line is cut there,
and the blanks before it belong to neither part; a line without such a marker is not cut
(`ofLine_cases`), and these are the only ones that are not (`ofLine_eq_self_iff`). So the node part
of a line has no comment of its own, and a line whose markers are all quoted stays as it is.
-/

namespace AsmLens

open Text

namespace Fragments

variable {markers : List Text} {q : Quoting} {a b s x y : Text} {c : Char}

/-- A marker begins between `x` and `y` outside quotes, where `x` begins at a position that stands
at `q`. -/
def MarkerAt (markers : List Text) (q : Quoting) (x y : Text) : Prop :=
  q.after x = .outside ∧ ∃ m ∈ markers, m <+: y

/-- The first marker outside quotes begins between `a` and `b`. -/
structure IsFirstMarker (markers : List Text) (q : Quoting) (a b : Text) : Prop where
  marker : MarkerAt markers q a b
  first : ∀ x y, a ++ b = x ++ y → MarkerAt markers q x y → a.length ≤ x.length

/-- The position between `x` and `y` lies between two quotes: one before it is open there, and one
behind it closes. -/
def InClosedQuotes (x y : Text) : Prop :=
  Quoting.outside.after x ≠ .outside ∧
    ∃ v w, y = v ++ '"' :: w ∧ Quoting.outside.after (x ++ v) = .inside

theorem markerAt_nil_iff :
    MarkerAt markers q [] s ↔ q = .outside ∧ markers.any (startsWith · s) = true := by
  simp [MarkerAt, startsWith]

/-- A marker further on stands there in the state one character later. -/
theorem markerAt_cons_iff : MarkerAt markers q (c :: x) y ↔ MarkerAt markers (q.next c) x y :=
  Iff.rfl

/-- No marker begins at the end of a text. -/
theorem MarkerAt.ne_nil (hne : [] ∉ markers) (h : MarkerAt markers q x y) : y ≠ [] := by
  obtain ⟨-, m, hm, hp⟩ := h
  rintro rfl
  rw [List.prefix_nil.1 hp] at hm
  exact hne hm

/-- One more character before the first marker, where none begins. -/
theorem IsFirstMarker.cons (h : IsFirstMarker markers (q.next c) a b)
    (hc : ¬ MarkerAt markers q [] (c :: (a ++ b))) : IsFirstMarker markers q (c :: a) b where
  marker := markerAt_cons_iff.2 h.marker
  first x y hxy hm := by
    cases x with
    | nil =>
      rw [List.nil_append] at hxy
      rw [← hxy] at hm
      exact absurd hm hc
    | cons d x =>
      obtain ⟨rfl, hrest⟩ := List.cons.inj hxy
      have := h.first x y hrest (markerAt_cons_iff.1 hm)
      simp only [List.length_cons]
      omega

/-! ## The cut -/

/-- A text is cut at the first marker outside quotes, or there is none. -/
theorem cutFrom_cases (hne : [] ∉ markers) (q : Quoting) (s : Text) :
    ((cutFrom markers q s).2 = [] ∧ ∀ x y, s = x ++ y → ¬ MarkerAt markers q x y) ∨
      IsFirstMarker markers q (cutFrom markers q s).1 (cutFrom markers q s).2 := by
  fun_induction cutFrom markers q s with
  | case1 q =>
    refine .inl ⟨rfl, fun x y hxy hm => hm.ne_nil hne ?_⟩
    exact (List.append_eq_nil_iff.1 hxy.symm).2
  | case2 q c s hm =>
    exact .inr ⟨markerAt_nil_iff.2 hm, fun _ _ _ _ => Nat.zero_le _⟩
  | case3 q c s hm ih =>
    -- None begins here, so what is found behind `c` is the first one from here too.
    have hc : ¬ MarkerAt markers q [] (c :: s) := fun h => hm (markerAt_nil_iff.1 h)
    rcases ih with ⟨hnil, hnone⟩ | hfirst
    · refine .inl ⟨hnil, fun x y hxy hmark => ?_⟩
      cases x with
      | nil => exact hc (hxy ▸ hmark)
      | cons d x =>
        obtain ⟨rfl, hrest⟩ := List.cons.inj hxy
        exact hnone x y hrest (markerAt_cons_iff.1 hmark)
    · refine .inr (hfirst.cons ?_)
      rwa [cutFrom_append]

/-- A line is not cut, or it is cut at the first marker outside quotes and the node part ends in no
blank. -/
theorem ofLine_cases (hne : [] ∉ markers) (s : Text) :
    (ofLine markers s = ⟨s, []⟩ ∧ ∀ x y, s = x ++ y → ¬ MarkerAt markers .outside x y) ∨
      ∃ w, IsBlanks w ∧ s = (ofLine markers s).node ++ (w ++ (ofLine markers s).comment) ∧
        IsFirstMarker markers .outside ((ofLine markers s).node ++ w)
          (ofLine markers s).comment ∧
        ∀ c ∈ (ofLine markers s).node.getLast?, isBlank c = false := by
  have hcut : cut markers false s = cutFrom markers .outside s := cut_eq_cutFrom markers false s
  have happend := cutFrom_append markers .outside s
  rcases cutFrom_cases hne .outside s with ⟨hnil, hnone⟩ | hfirst
  · refine .inl ⟨?_, hnone⟩
    rw [ofLine, hcut, hnil]
    rfl
  · obtain ⟨w, hw, htrim⟩ := trimEnd_append_blanks (cutFrom markers .outside s).1
    have hsplit : ofLine markers s =
        ⟨trimEnd (cutFrom markers .outside s).1, (cutFrom markers .outside s).2⟩ := by
      have hcomment := hfirst.marker.ne_nil hne
      rw [ofLine, hcut]
      simp [hcomment]
    rw [hsplit]
    refine .inr ⟨w, hw, ?_, htrim ▸ hfirst, getLast?_trimEnd⟩
    rw [← List.append_assoc, ← htrim, happend]

/-- The lines that stay as they are have no marker outside quotes. -/
theorem ofLine_eq_self_iff (hne : [] ∉ markers) :
    ofLine markers s = ⟨s, []⟩ ↔ ∀ x y, s = x ++ y → ¬ MarkerAt markers .outside x y := by
  constructor
  · intro h
    rcases ofLine_cases hne s with ⟨-, hnone⟩ | ⟨w, -, -, hfirst, -⟩
    · exact hnone
    · rw [h] at hfirst
      exact absurd rfl (hfirst.marker.ne_nil hne)
  · intro hnone
    rcases ofLine_cases hne s with ⟨h, -⟩ | ⟨w, -, hs, hfirst, -⟩
    · exact h
    · rw [← List.append_assoc] at hs
      exact absurd hfirst.marker (hnone _ _ hs)

theorem nil_notMem_commentMarkers {t : Target} : [] ∉ t.commentMarkers := by
  intro h
  simpa using Target.mem_commentMarkers h

/-- **Where a line is cut.** A line is its node part, blanks and its comment part. Without a comment
the node part is the whole line; otherwise the comment begins at the first marker outside quotes,
and all blanks before it are left out. The node part has no comment, and a line stays as it is if
all markers in it are quoted. -/
theorem ofLine_cuts_at_first_marker (t : Target) (s : Text) :
    let parts := ofLine t.commentMarkers s
    (∃ w, IsBlanks w ∧ s = parts.node ++ (w ++ parts.comment) ∧
      (parts.comment = [] → parts.node = s) ∧
      (parts.comment ≠ [] →
        IsFirstMarker t.commentMarkers .outside (parts.node ++ w) parts.comment ∧
          ∀ c ∈ parts.node.getLast?, isBlank c = false)) ∧
    ofLine t.commentMarkers parts.node = ⟨parts.node, []⟩ ∧
    ((∀ x y, s = x ++ y → (∃ m ∈ t.commentMarkers, m <+: y) → InClosedQuotes x y) →
      parts = ⟨s, []⟩) := by
  intro parts
  have hne : [] ∉ t.commentMarkers := nil_notMem_commentMarkers
  refine ⟨?_, ofLine_of_unmarked (unmarked_node t.commentMarkers s), fun hquoted => ?_⟩
  · rcases ofLine_cases hne s with ⟨hself, -⟩ | ⟨w, hw, hs, hfirst, hend⟩
    · have hparts : parts = ⟨s, []⟩ := hself
      rw [hparts]
      exact ⟨[], fun _ h => absurd h List.not_mem_nil, by simp, fun _ => rfl, fun h => absurd rfl h⟩
    · exact ⟨w, hw, hs, fun h => absurd h (hfirst.marker.ne_nil hne), fun _ => ⟨hfirst, hend⟩⟩
  · refine (ofLine_eq_self_iff hne).2 fun x y hxy hm => ?_
    exact (hquoted x y hxy hm.2).1 hm.1

/-- A comment behind a quoted text that has both markers and a protected quote, and a text whose only
marker is quoted. -/
theorem ofLine_cuts_at_first_marker_behind_quotes :
    let t : Target := ⟨"aarch64-apple-darwin".toList⟩
    let commented : Text := "ldr x0, \"a\\\"//b;\" \t/// c".toList
    let quoted : Text := "\"\\\"//\"".toList
    let parts := ofLine t.commentMarkers commented
    (parts.comment ≠ [] ∧ ∃ w, IsBlanks w ∧ commented = parts.node ++ (w ++ parts.comment) ∧
      IsFirstMarker t.commentMarkers .outside (parts.node ++ w) parts.comment ∧
      ∀ c ∈ parts.node.getLast?, isBlank c = false) ∧
    (∀ x y, quoted = x ++ y → (∃ m ∈ t.commentMarkers, m <+: y) → InClosedQuotes x y) ∧
      ofLine t.commentMarkers quoted = ⟨quoted, []⟩ := by
  intro t commented quoted parts
  have hcomment : parts.comment ≠ [] := by decide +kernel
  have hat : ∀ n, n ≤ quoted.length → (∃ m ∈ t.commentMarkers, m <+: quoted.drop n) → n = 3 := by
    decide +kernel
  have hquoted : ∀ x y, quoted = x ++ y → (∃ m ∈ t.commentMarkers, m <+: y) →
      InClosedQuotes x y := by
    intro x y hxy hm
    have hx : x = quoted.take x.length := by rw [hxy, List.take_left]
    have hy : y = quoted.drop x.length := by rw [hxy, List.drop_left]
    have hle : x.length ≤ quoted.length := by rw [hxy, List.length_append]; omega
    rw [hat x.length hle (hy ▸ hm)] at hx hy
    rw [hx, hy]
    exact ⟨by decide, "//".toList, [], by decide, by decide⟩
  obtain ⟨⟨w, hw, hs, -, hfirst⟩, -, -⟩ := ofLine_cuts_at_first_marker t commented
  exact ⟨⟨hcomment, w, hw, hs, hfirst hcomment⟩, hquoted,
    (ofLine_cuts_at_first_marker t quoted).2.2 hquoted⟩

end Fragments

end AsmLens
