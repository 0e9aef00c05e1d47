import AsmLens.Path.Normal
import AsmLens.Proofs.Lists
import AsmLens.Proofs.Path.Components

/-!
# The normal form of a path

A path and its normal form have the same parts (`parts_toText`), and both begin with a slash or
neither does (`isRooted_toText`). Nothing but slashes and full stops is lost on the way
(`mem_toText`).
-/

namespace AsmLens.Path.Normal

open Text

variable {p c : Text} {ps : List Text}

/-- A text that may be a part: neither empty nor a full stop. -/
def counts (c : Text) : Bool :=
  !c.isEmpty && c != ['.']

/-- A part of a path: a text that may be one, without slashes. -/
abbrev IsPart (c : Text) : Prop :=
  IsPiece (· == '/') counts c

theorem parts_eq_pieces (p : Text) : (ofText p).parts = pieces (· == '/') counts p := rfl

theorem isPart_of_mem (h : c ∈ (ofText p).parts) : IsPart c :=
  isPiece_of_mem_pieces h

theorem parts_nil : (ofText []).parts = [] := by
  rw [parts_eq_pieces, pieces_nil rfl]

/-- A slash parts a path. -/
theorem parts_append_slash (a b : Text) :
    (ofText (a ++ '/' :: b)).parts = (ofText a).parts ++ (ofText b).parts :=
  pieces_append_cons (by decide) a b

/-- Parts that are joined are parted again. -/
theorem parts_join (h : ∀ c ∈ ps, IsPart c) : (ofText (join ['/'] ps)).parts = ps :=
  pieces_join (by decide) rfl h

/-- The root is one slash or two if the path begins with a slash, and else there is none. -/
theorem rootOf_cases (p : Text) :
    (isRooted p = false ∧ rootOf p = []) ∨
      (isRooted p = true ∧ (rootOf p = ['/'] ∨ rootOf p = ['/', '/'])) := by
  cases p with
  | nil => exact .inl ⟨rfl, rfl⟩
  | cons c p =>
    by_cases hc : c = '/'
    · subst hc
      refine .inr ⟨rfl, ?_⟩
      unfold rootOf
      rw [List.takeWhile_cons_of_pos (by decide)]
      split
      · rename_i h
        simp at h
      · exact .inr rfl
      · exact .inl rfl
    · refine .inl ⟨by simp [isRooted, hc], ?_⟩
      rw [rootOf, List.takeWhile_cons_of_neg (by simpa using hc)]
      rfl

/-- A path in normal form: its root is none, one slash or two, and its parts are parts. -/
structure IsNormal (n : Normal) : Prop where
  root : n.root = [] ∨ n.root = ['/'] ∨ n.root = ['/', '/']
  parts : ∀ c ∈ n.parts, IsPart c

/-- Every path has a normal form. -/
theorem isNormal_ofText (p : Text) : IsNormal (ofText p) := by
  refine ⟨?_, fun c hc => isPart_of_mem hc⟩
  rcases rootOf_cases p with ⟨-, hr⟩ | ⟨-, hr⟩
  · exact .inl hr
  · exact .inr hr

theorem IsNormal.child {n : Normal} (h : IsNormal n) (p : Text) : IsNormal (n.child p) := by
  unfold Normal.child
  dsimp only
  split
  · exact ⟨h.root, List.forall_mem_append.2 ⟨h.parts, (isNormal_ofText p).parts⟩⟩
  · exact isNormal_ofText p

/-- The text is the root and the joined parts, or a full stop if there is neither. -/
theorem IsNormal.toText_cases {n : Normal} (h : IsNormal n) :
    n.toText = n.root ++ join ['/'] n.parts ∨
      (n.root = [] ∧ n.parts = [] ∧ n.toText = ['.']) := by
  unfold toText
  split
  · rename_i hnil
    obtain ⟨hr, hj⟩ := List.append_eq_nil_iff.1 hnil
    have hparts := parts_join h.parts
    rw [hj, parts_nil] at hparts
    exact .inr ⟨hr, hparts.symm, rfl⟩
  · exact .inl rfl

theorem toText_cases (p : Text) :
    (ofText p).toText = rootOf p ++ join ['/'] (ofText p).parts ∨
      (rootOf p = [] ∧ (ofText p).parts = [] ∧ (ofText p).toText = ['.']) :=
  (isNormal_ofText p).toText_cases

/-- The parts of a normal form are read back from its text. -/
theorem IsNormal.parts_toText {n : Normal} (h : IsNormal n) :
    (ofText n.toText).parts = n.parts := by
  have hparts := parts_join h.parts
  have hslash : ∀ s, (ofText ('/' :: s)).parts = (ofText s).parts := fun s => by
    rw [← List.nil_append ('/' :: s), parts_append_slash, parts_nil, List.nil_append]
  rcases h.toText_cases with ht | ⟨-, hnil, ht⟩
  · rw [ht]
    rcases h.root with hr | hr | hr
    · rw [hr, List.nil_append, hparts]
    · rw [hr, List.singleton_append, hslash, hparts]
    · rw [hr, List.cons_append, List.singleton_append, hslash, hslash, hparts]
  · rw [ht, hnil]
    decide +kernel

theorem parts_toText (p : Text) : (ofText (ofText p).toText).parts = (ofText p).parts :=
  (isNormal_ofText p).parts_toText

theorem isRooted_join (h : ∀ c ∈ ps, IsPart c) : isRooted (join ['/'] ps) = false := by
  cases ps with
  | nil => rfl
  | cons a ps =>
    have ha := h a List.mem_cons_self
    have hroot : isRooted a = false := isRooted_of_isPiece (by decide) ha
    cases a with
    | nil => exact absurd ha.counts (by decide)
    | cons d a =>
      cases ps with
      | nil => rwa [join, List.intercalate_singleton]
      | cons b ps => rwa [join_cons_cons]

/-- The root of a text that begins with one and goes on without a slash. -/
theorem rootOf_append {root s : Text} (hroot : root = [] ∨ root = ['/'] ∨ root = ['/', '/'])
    (hs : isRooted s = false) : rootOf (root ++ s) = root := by
  have hslashes : ∀ c ∈ root, (c == '/') = true := by
    rcases hroot with rfl | rfl | rfl <;> simp
  have hnone : ∀ c ∈ s.head?, (c == '/') = false := by
    cases s with
    | nil => simp
    | cons c s => simpa [isRooted] using hs
  rw [rootOf, takeWhile_run hslashes hnone]
  rcases hroot with rfl | rfl | rfl
  · rfl
  · rfl
  · rfl

/-- A normal form is its own. -/
theorem IsNormal.toText_ofText {n : Normal} (h : IsNormal n) :
    (ofText n.toText).toText = n.toText := by
  have hroot : ∀ t, n.toText = n.root ++ t → isRooted t = false → ofText n.toText = n := by
    intro t ht hs
    have hr : rootOf n.toText = n.root := by rw [ht, rootOf_append h.root hs]
    calc ofText n.toText = ⟨rootOf n.toText, (ofText n.toText).parts⟩ := rfl
      _ = ⟨n.root, n.parts⟩ := by rw [hr, h.parts_toText]
  rcases h.toText_cases with ht | ⟨hr, -, ht⟩
  · rw [hroot _ ht (isRooted_join h.parts)]
  · rw [hroot ['.'] (by rw [ht, hr]; rfl) rfl]

/-- A normal form has the root of its path. -/
theorem isRooted_toText (p : Text) : isRooted (ofText p).toText = isRooted p := by
  rcases rootOf_cases p with ⟨hp, hr⟩ | ⟨hp, hr⟩
  · rcases toText_cases p with h | ⟨-, -, h⟩
    · rw [h, hr, List.nil_append, hp]
      exact isRooted_join fun c hc => isPart_of_mem hc
    · rw [h, hp]
      rfl
  · rcases toText_cases p with h | ⟨hno, -, -⟩
    · rw [h, hp]
      rcases hr with hr | hr <;> rw [hr] <;> rfl
    · rcases hr with hr | hr <;> cases hr.symm.trans hno

/-- A path that is joined has the parts of both, unless the second begins with a slash. -/
theorem parts_joinRooted (a b : Text) :
    (ofText (joinRooted a b)).parts =
      if isRooted b then (ofText b).parts else (ofText a).parts ++ (ofText b).parts :=
  pieces_joinRooted (by decide) rfl a b

/-- The normal form keeps all characters but slashes and full stops. -/
theorem mem_toText {d : Char} (hd : d ∈ p) (hslash : d ≠ '/') (hdot : d ≠ '.') :
    d ∈ (ofText p).toText := by
  obtain ⟨w, hw, hdw⟩ := exists_mem_splitOnP (p := (· == '/')) hd (by simpa using hslash)
  have hpart : w ∈ (ofText p).parts := by
    refine List.mem_filter.2 ⟨hw, ?_⟩
    have hne : w ≠ ['.'] := by
      rintro rfl
      exact hdot (List.mem_singleton.1 hdw)
    simp [hne, List.ne_nil_of_mem hdw]
  rcases toText_cases p with h | ⟨-, hnil, -⟩
  · rw [h]
    exact List.mem_append_right _ (mem_join hpart hdw)
  · rw [hnil] at hpart
    cases hpart

end AsmLens.Path.Normal
