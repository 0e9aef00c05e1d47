import AsmLens.Text.Search

/-!
# Pieces between separators

A text is cut at its separators, and of the pieces those that count are kept. Words are such pieces,
and so are the components of a path and the parts of a path in normal form. A separator parts a text
(`pieces_append_cons`), and more of them part it no further (`pieces_append_of_separators`); pieces
that are joined are parted again (`pieces_join`).
-/

namespace AsmLens.Text

/-- The pieces of a text between separators that count. -/
def pieces (isSep : Char → Bool) (counts : Text → Bool) (s : Text) : List Text :=
  (s.splitOnP isSep).filter counts

/-- A text that counts and has no separators. -/
structure IsPiece (isSep : Char → Bool) (counts : Text → Bool) (c : Text) : Prop where
  counts : counts c = true
  solid : ∀ d ∈ c, isSep d = false

/-- The pieces of a cut have nothing that it cuts at. -/
theorem forall_mem_splitOnP (p : Char → Bool) (s : Text) :
    ∀ w ∈ s.splitOnP p, ∀ c ∈ w, p c = false := by
  induction s with
  | nil => simp [List.splitOnP_nil]
  | cons c s ih =>
    rw [List.splitOnP_cons_eq_if_modifyHead]
    split
    · exact List.forall_mem_cons.2 ⟨fun _ h => absurd h List.not_mem_nil, ih⟩
    · rename_i hc
      cases hs : s.splitOnP p with
      | nil => exact absurd hs (List.splitOnP_ne_nil _ _)
      | cons w ws =>
        rw [hs, List.forall_mem_cons] at ih
        rw [List.modifyHead_cons, List.forall_mem_cons, List.forall_mem_cons]
        exact ⟨⟨Bool.eq_false_iff.2 hc, ih.1⟩, ih.2⟩

/-- What a text is not cut at is in one of the pieces. -/
theorem exists_mem_splitOnP {p : Char → Bool} {s : Text} {d : Char} (hd : d ∈ s)
    (hp : p d = false) : ∃ w ∈ s.splitOnP p, d ∈ w := by
  induction s with
  | nil => cases hd
  | cons c s ih =>
    rw [List.splitOnP_cons_eq_if_modifyHead]
    split
    · rename_i hc
      rcases List.mem_cons.1 hd with rfl | hd
      · cases hp.symm.trans hc
      · obtain ⟨w, hw, hdw⟩ := ih hd
        exact ⟨w, List.mem_cons_of_mem _ hw, hdw⟩
    · cases hs : s.splitOnP p with
      | nil => exact absurd hs (List.splitOnP_ne_nil _ _)
      | cons w ws =>
        rw [List.modifyHead_cons]
        rcases List.mem_cons.1 hd with rfl | hd
        · exact ⟨d :: w, List.mem_cons_self, List.mem_cons_self⟩
        · obtain ⟨v, hv, hdv⟩ := ih hd
          rw [hs] at hv
          rcases List.mem_cons.1 hv with rfl | hv
          · exact ⟨c :: v, List.mem_cons_self, List.mem_cons_of_mem _ hdv⟩
          · exact ⟨v, List.mem_cons_of_mem _ hv, hdv⟩

theorem join_cons_cons (sep : Char) (a b : Text) (ts : List Text) :
    join [sep] (a :: b :: ts) = a ++ sep :: join [sep] (b :: ts) := by
  rw [join, List.intercalate_cons_cons, List.append_assoc]
  rfl

/-- Joining keeps all characters of the texts. -/
theorem mem_join {sep d : Char} {c : Text} {ts : List Text} (hc : c ∈ ts) (hd : d ∈ c) :
    d ∈ join [sep] ts := by
  induction ts with
  | nil => cases hc
  | cons a ts ih =>
    cases ts with
    | nil =>
      rw [List.mem_singleton.1 hc] at hd
      rwa [join, List.intercalate_singleton]
    | cons b ts =>
      rw [join_cons_cons, List.mem_append]
      obtain rfl | hc := List.mem_cons.1 hc
      · exact .inl hd
      · exact .inr (List.mem_cons_of_mem _ (ih hc))

/-- Joining adds nothing but the separator. -/
theorem mem_of_mem_join {sep d : Char} {ts : List Text} (h : d ∈ join [sep] ts) :
    d = sep ∨ ∃ c ∈ ts, d ∈ c := by
  induction ts with
  | nil => cases h
  | cons a ts ih =>
    cases ts with
    | nil =>
      rw [join, List.intercalate_singleton] at h
      exact .inr ⟨a, List.mem_cons_self, h⟩
    | cons b ts =>
      rw [join_cons_cons, List.mem_append, List.mem_cons] at h
      obtain h | h | h := h
      · exact .inr ⟨a, List.mem_cons_self, h⟩
      · exact .inl h
      · obtain hsep | ⟨c, hc, hd⟩ := ih h
        · exact .inl hsep
        · exact .inr ⟨c, List.mem_cons_of_mem _ hc, hd⟩

section

variable {isSep : Char → Bool} {counts : Text → Bool}

/-- A piece that is cut out has no separator and counts. -/
theorem isPiece_of_mem_pieces {s c : Text} (h : c ∈ pieces isSep counts s) :
    IsPiece isSep counts c := by
  obtain ⟨hmem, hcounts⟩ := List.mem_filter.1 h
  exact ⟨hcounts, forall_mem_splitOnP isSep s c hmem⟩

/-- A separator parts a text. -/
theorem pieces_append_cons {d : Char} (hd : isSep d = true) (a b : Text) :
    pieces isSep counts (a ++ d :: b) = pieces isSep counts a ++ pieces isSep counts b := by
  rw [pieces, List.splitOnP_append_cons a b hd, List.filter_append, pieces, pieces]

theorem pieces_nil (hnil : counts [] = false) : pieces isSep counts [] = [] := by
  simp [pieces, hnil]

/-- Separators before a text do not matter. -/
theorem pieces_append_of_separators (hnil : counts [] = false) {u : Text}
    (hu : ∀ c ∈ u, isSep c = true) (s : Text) :
    pieces isSep counts (u ++ s) = pieces isSep counts s := by
  induction u with
  | nil => rfl
  | cons c u ih =>
    obtain ⟨hc, hrest⟩ := List.forall_mem_cons.1 hu
    show pieces isSep counts ([] ++ c :: (u ++ s)) = pieces isSep counts s
    rw [pieces_append_cons hc, pieces_nil hnil, List.nil_append, ih hrest]

/-- A piece is its own only piece. -/
theorem pieces_of_isPiece {c : Text} (h : IsPiece isSep counts c) :
    pieces isSep counts c = [c] := by
  rw [pieces, List.splitOnP_eq_singleton h.solid]
  simp [h.counts]

/-- Pieces that are joined by a separator are parted again. -/
theorem pieces_join {sep : Char} (hsep : isSep sep = true) (hnil : counts [] = false)
    {ts : List Text} (h : ∀ c ∈ ts, IsPiece isSep counts c) :
    pieces isSep counts (join [sep] ts) = ts := by
  induction ts with
  | nil => exact pieces_nil hnil
  | cons a ts ih =>
    obtain ⟨ha, hts⟩ := List.forall_mem_cons.1 h
    cases ts with
    | nil => rw [join, List.intercalate_singleton, pieces_of_isPiece ha]
    | cons b ts =>
      rw [join_cons_cons, pieces_append_cons hsep, pieces_of_isPiece ha, ih hts,
        List.singleton_append]

end

end AsmLens.Text
