import AsmLens.Assembly.Fragment
import AsmLens.Proofs.Text.Quoting
import AsmLens.Proofs.Text.Trimming
import AsmLens.Target

/-!
# Where a line is cut

Reading from left to right, a position stands outside quotes, inside them, or behind a backslash
inside them (`Quoting`). A text is `Unmarked` if no comment marker begins at a position outside
quotes; these are the texts that are not cut, and the node part of every line is one of them.
Whether a text built from parts is unmarked is told part by part (`unmarked_append`,
`unmarked_append_cons`), and so is where it is cut (`cutFrom_append_cons`).
-/

namespace AsmLens

open Text

/-- Where a position of a line stands. -/
inductive Quoting where
  | outside
  | inside
  | guarded
deriving DecidableEq, Repr

namespace Quoting

/-- Where the position after a character stands. -/
def next : Quoting → Char → Quoting
  | outside, c => if c = '"' then inside else outside
  | inside, c => if c = '"' then outside else if c = '\\' then guarded else inside
  | guarded, _ => inside

/-- Where the position after a text stands. -/
def after (q : Quoting) (s : Text) : Quoting :=
  s.foldl next q

@[simp] theorem after_nil (q : Quoting) : q.after [] = q := rfl

@[simp] theorem after_cons (q : Quoting) (c : Char) (s : Text) :
    q.after (c :: s) = (q.next c).after s := rfl

@[simp] theorem after_append (q : Quoting) (a b : Text) :
    q.after (a ++ b) = (q.after a).after b :=
  List.foldl_append

/-- The position that a flag for being inside quotes stands for. -/
def ofFlag (b : Bool) : Quoting :=
  if b then inside else outside

/-- The flag of the scanner is the state of the quotes, except behind a backslash. -/
theorem next_ofFlag {b : Bool} {c : Char} (h : b = true → c ≠ '\\') :
    (ofFlag b).next c = ofFlag (if c = '"' then !b else b) := by
  cases b with
  | false => by_cases hc : c = '"' <;> simp [ofFlag, next, hc]
  | true => by_cases hc : c = '"' <;> simp [ofFlag, next, hc, h rfl]

end Quoting

namespace Fragments

variable {markers : List Text}

/-- No marker begins outside quotes. -/
def Unmarked (markers : List Text) : Quoting → Text → Prop
  | _, [] => True
  | q, c :: s =>
    (q = .outside → ∀ m ∈ markers, startsWith m (c :: s) = false)
      ∧ Unmarked markers (q.next c) s

theorem startsWith_mono {m a s : Text} (h : a <+: s) (hm : startsWith m a = true) :
    startsWith m s = true :=
  List.isPrefixOf_iff_prefix.2 ((List.isPrefixOf_iff_prefix.1 hm).trans h)

/-- What begins a text up to a character that it does not have ends before that character. -/
theorem startsWith_append_cons {m a b : Text} {c : Char} (hc : c ∉ m)
    (h : startsWith m (a ++ c :: b) = true) : startsWith m a = true := by
  have hm := List.isPrefixOf_iff_prefix.1 h
  rcases List.prefix_or_prefix_of_prefix hm (List.prefix_append a (c :: b)) with hp | ⟨v, rfl⟩
  · exact List.isPrefixOf_iff_prefix.2 hp
  · cases v with
    | nil => simp [startsWith]
    | cons d v =>
      obtain ⟨w, hw⟩ := hm
      rw [List.append_assoc, List.append_cancel_left_eq, List.cons_append] at hw
      exact absurd (by simp [(List.cons.inj hw).1]) hc

/-- What does not begin a text that ends in a character that it does not have begins no longer text
either. -/
theorem startsWith_eq_false {m a : Text} {c : Char} (hc : c ∉ m)
    (h : startsWith m (a ++ [c]) = false) (s : Text) : startsWith m (a ++ c :: s) = false := by
  apply Bool.eq_false_iff.2
  intro hs
  have ha := startsWith_mono (List.prefix_append a [c]) (startsWith_append_cons hc hs)
  exact Bool.false_ne_true (h.symm.trans ha)

/-! ## Unmarked texts -/

/-- Both parts of a text without a marker are without one, the second in the state the first leaves.
-/
theorem unmarked_append {q : Quoting} {a b : Text} (h : Unmarked markers q (a ++ b)) :
    Unmarked markers q a ∧ Unmarked markers (q.after a) b := by
  induction a generalizing q with
  | nil => exact ⟨trivial, h⟩
  | cons c a ih =>
    obtain ⟨hm, ht⟩ := h
    obtain ⟨ha, hb⟩ := ih ht
    refine ⟨⟨fun hq m hmem => ?_, ha⟩, hb⟩
    apply Bool.eq_false_iff.2
    intro hs
    have := startsWith_mono (List.prefix_append (c :: a) b) hs
    exact Bool.false_ne_true ((hm hq m hmem).symm.trans this)

theorem unmarked_mono {q : Quoting} {a s : Text} (hp : a <+: s) (h : Unmarked markers q s) :
    Unmarked markers q a := by
  obtain ⟨b, rfl⟩ := hp
  exact (unmarked_append h).1

/-- A character that no marker has parts a text. -/
theorem unmarked_append_cons {q : Quoting} {a b : Text} {c : Char} (hc : ∀ m ∈ markers, c ∉ m)
    (ha : Unmarked markers q a) (hb : Unmarked markers (q.after a) (c :: b)) :
    Unmarked markers q (a ++ c :: b) := by
  induction a generalizing q with
  | nil => exact hb
  | cons d a ih =>
    obtain ⟨hm, ht⟩ := ha
    refine ⟨fun hq m hmem => Bool.eq_false_iff.2 fun hs => ?_, ih ht hb⟩
    have := startsWith_append_cons (hc m hmem) (a := d :: a) hs
    exact Bool.false_ne_true ((hm hq m hmem).symm.trans this)

/-- A character that neither begins a marker nor is a quote. -/
def IsPlain (markers : List Text) (c : Char) : Prop :=
  c ≠ '"' ∧ ∀ m ∈ markers, ∀ s, startsWith m (c :: s) = false

theorem unmarked_cons {q : Quoting} {c : Char} {s : Text} (hc : IsPlain markers c)
    (hs : Unmarked markers (q.next c) s) : Unmarked markers q (c :: s) :=
  ⟨fun _ m hm => hc.2 m hm s, hs⟩

/-- Plain text in front brings no marker in. -/
theorem unmarked_plain_append {a s : Text} (ha : ∀ c ∈ a, IsPlain markers c)
    (hs : Unmarked markers .outside s) : Unmarked markers .outside (a ++ s) := by
  induction a with
  | nil => exact hs
  | cons c a ih =>
    have hc := ha c List.mem_cons_self
    apply unmarked_cons hc
    rw [Quoting.next, if_neg hc.1]
    exact ih fun d hd => ha d (List.mem_cons_of_mem _ hd)

theorem unmarked_of_plain {s : Text} (h : ∀ c ∈ s, IsPlain markers c) :
    Unmarked markers .outside s := by
  simpa using unmarked_plain_append h (s := []) trivial

theorem after_plain {s : Text} (h : ∀ c ∈ s, c ≠ '"') : Quoting.outside.after s = .outside := by
  induction s with
  | nil => rfl
  | cons c s ih =>
    have hc : c ≠ '"' := h c List.mem_cons_self
    rw [Quoting.after_cons, Quoting.next, if_neg hc]
    exact ih fun d hd => h d (List.mem_cons_of_mem _ hd)

/-! ## Blanks and commas -/

/-- Blanks leave the state of the quotes as it is, unless the first is guarded. -/
theorem after_blanks {q : Quoting} (hq : q ≠ .guarded) {b : Text} (hb : IsBlanks b) :
    q.after b = q := by
  induction b with
  | nil => rfl
  | cons c b ih =>
    have hc := hb c List.mem_cons_self
    have hquote : c ≠ '"' := by
      rintro rfl
      exact absurd hc (by decide)
    have hslash : c ≠ '\\' := by
      rintro rfl
      exact absurd hc (by decide)
    have hnext : q.next c = q := by
      cases q with
      | outside => rw [Quoting.next, if_neg hquote]
      | inside => rw [Quoting.next, if_neg hquote, if_neg hslash]
      | guarded => exact absurd rfl hq
    rw [Quoting.after_cons, hnext]
    exact ih fun d hd => hb d (List.mem_cons_of_mem _ hd)

/-- Behind a comma no backslash is in force. -/
theorem next_comma_ne_guarded (q : Quoting) : q.next ',' ≠ .guarded := by
  cases q <;> decide

/-- Blanks before a comma do not matter for what comes after it. -/
theorem next_comma_after_blanks (q : Quoting) {b : Text} (hb : IsBlanks b) :
    (q.after b).next ',' = q.next ',' := by
  cases q with
  | guarded =>
    cases b with
    | nil => rfl
    | cons c b =>
      have hrest : IsBlanks b := fun d hd => hb d (List.mem_cons_of_mem _ hd)
      have hafter : Quoting.guarded.after (c :: b) = .inside :=
        after_blanks (q := .inside) (by decide) hrest
      rw [hafter]
      decide
  | outside => rw [after_blanks (by decide) hb]
  | inside => rw [after_blanks (by decide) hb]

/-- Behind a comma it does not matter whether the text before it was trimmed. -/
theorem next_comma_after_trim {q : Quoting} (hq : q ≠ .guarded) (s : Text) :
    (q.after (trim s)).next ',' = (q.after s).next ',' := by
  obtain ⟨a, b, ha, hb, hs⟩ := blanks_append_trim s
  calc
    (q.after (trim s)).next ',' = ((q.after (trim s)).after b).next ',' :=
      (next_comma_after_blanks _ hb).symm
    _ = (q.after (a ++ (trim s ++ b))).next ',' := by
      rw [Quoting.after_append, after_blanks hq ha, Quoting.after_append]
    _ = (q.after s).next ',' := by rw [← hs]

theorem unmarked_trim {q : Quoting} (hq : q ≠ .guarded) {s : Text} (h : Unmarked markers q s) :
    Unmarked markers q (trim s) := by
  obtain ⟨a, b, ha, -, hs⟩ := blanks_append_trim s
  rw [hs] at h
  have hrest := (unmarked_append h).2
  rw [after_blanks hq ha] at hrest
  exact (unmarked_append hrest).1

/-! ## Quoted texts -/

/-- The inside of a quoted text does not end the quotes. -/
theorem after_enclosed {p : Text} (hp : IsEnclosed p) : Quoting.inside.after p = .inside := by
  induction hp with
  | nil => rfl
  | plain hq hb _ ih => rwa [Quoting.after_cons, Quoting.next, if_neg hq, if_neg hb]
  | guarded _ _ ih => exact ih

/-- A quoted text may hold markers. -/
theorem unmarked_enclosed {p s : Text} (hp : IsEnclosed p) (hs : Unmarked markers .outside s) :
    Unmarked markers .inside (p ++ '"' :: s) := by
  induction hp with
  | nil => exact ⟨by simp, hs⟩
  | plain hq hb _ ih =>
    refine ⟨by simp, ?_⟩
    rwa [Quoting.next, if_neg hq, if_neg hb]
  | guarded _ _ ih => exact ⟨by simp, ⟨by simp [Quoting.next], ih⟩⟩

/-! ## Cutting -/

/-- The text before the first marker outside quotes and the text from it on, where the text starts
at a position that stands anywhere. -/
def cutFrom (markers : List Text) : Quoting → Text → Text × Text
  | _, [] => ([], [])
  | q, c :: s =>
    if q = .outside ∧ markers.any (startsWith · (c :: s)) = true then ([], c :: s)
    else (c :: (cutFrom markers (q.next c) s).1, (cutFrom markers (q.next c) s).2)

/-- The scanner with its one flag is the scan with all three states. -/
theorem cut_eq_cutFrom (markers : List Text) (b : Bool) (s : Text) :
    cut markers b s = cutFrom markers (.ofFlag b) s := by
  fun_induction cut markers b s with
  | case1 => rfl
  | case2 c s r ih =>
    simp [r, ih, cutFrom, Quoting.ofFlag, Quoting.next]
  | case3 b c s _ hm =>
    obtain ⟨hb, hany⟩ := Bool.and_eq_true_iff.1 hm
    rw [cutFrom, if_pos ⟨by simpa [Quoting.ofFlag] using hb, hany⟩]
  | case4 b c s hb hm r ih =>
    have hout : ¬ (Quoting.ofFlag b = .outside ∧ markers.any (startsWith · (c :: s)) = true) := by
      rintro ⟨hq, hany⟩
      cases b with
      | false => exact hm hany
      | true => cases hq
    rw [cutFrom, if_neg hout]
    by_cases hc : b = true ∧ c = '\\'
    · -- a backslash that ends the line protects nothing
      cases s with
      | nil => rfl
      | cons d s => exact absurd rfl (hb d s hc.1 (by rw [hc.2]))
    · rw [Quoting.next_ofFlag fun h h' => hc ⟨h, h'⟩]
      simp only [r, ih]

theorem cutFrom_append (markers : List Text) (q : Quoting) (s : Text) :
    (cutFrom markers q s).1 ++ (cutFrom markers q s).2 = s := by
  fun_induction cutFrom markers q s with
  | case1 => rfl
  | case2 => rfl
  | case3 q c s _ ih => exact congrArg (c :: ·) ih

/-- The two parts of the cut are the text. -/
theorem cut_append (markers : List Text) (b : Bool) (s : Text) :
    (cut markers b s).1 ++ (cut markers b s).2 = s := by
  rw [cut_eq_cutFrom, cutFrom_append]

/-- In front of the cut there is no marker outside quotes. -/
theorem unmarked_cutFrom (markers : List Text) (q : Quoting) (s : Text) :
    Unmarked markers q (cutFrom markers q s).1 := by
  fun_induction cutFrom markers q s with
  | case1 => trivial
  | case2 => trivial
  | case3 q c s hm ih =>
    refine ⟨fun hq m hmem => Bool.eq_false_iff.2 fun hs => hm ⟨hq, ?_⟩, ih⟩
    have hp : c :: (cutFrom markers (q.next c) s).1 <+: c :: s :=
      ⟨_, congrArg (c :: ·) (cutFrom_append markers (q.next c) s)⟩
    exact List.any_eq_true.2 ⟨m, hmem, startsWith_mono hp hs⟩

/-- The text before the cut is unmarked. -/
theorem unmarked_cut (markers : List Text) (b : Bool) (s : Text) :
    Unmarked markers (.ofFlag b) (cut markers b s).1 := by
  rw [cut_eq_cutFrom]
  exact unmarked_cutFrom markers _ s

theorem not_marker_of_unmarked {q : Quoting} {s : Text}
    (h : q = .outside → ∀ m ∈ markers, startsWith m s = false) :
    ¬ (q = .outside ∧ markers.any (startsWith · s) = true) := by
  rintro ⟨hq, hany⟩
  obtain ⟨m, hm, hs⟩ := List.any_eq_true.1 hany
  exact Bool.false_ne_true ((h hq m hm).symm.trans hs)

/-- A text without a marker is not cut. -/
theorem cutFrom_of_unmarked {q : Quoting} {s : Text} (h : Unmarked markers q s) :
    cutFrom markers q s = (s, []) := by
  induction s generalizing q with
  | nil => rfl
  | cons c s ih => rw [cutFrom, if_neg (not_marker_of_unmarked h.1), ih h.2]

/-- An unmarked text is not cut. -/
theorem cut_of_unmarked {b : Bool} {s : Text} (h : Unmarked markers (.ofFlag b) s) :
    cut markers b s = (s, []) := by
  rw [cut_eq_cutFrom, cutFrom_of_unmarked h]

/-- Behind a character that no marker has, the cut is that of what follows. -/
theorem cutFrom_append_cons {q : Quoting} {a : Text} {c : Char} (hc : ∀ m ∈ markers, c ∉ m)
    (ha : Unmarked markers q (a ++ [c])) (s : Text) :
    cutFrom markers q (a ++ c :: s) =
      (a ++ c :: (cutFrom markers (q.after (a ++ [c])) s).1,
        (cutFrom markers (q.after (a ++ [c])) s).2) := by
  induction a generalizing q with
  | nil =>
    have hout := fun hq m hm => startsWith_eq_false (a := []) (hc m hm) (ha.1 hq m hm) s
    rw [List.nil_append] at hout ⊢
    rw [cutFrom, if_neg (not_marker_of_unmarked hout)]
    rfl
  | cons d a ih =>
    have hout := fun hq m hm => startsWith_eq_false (a := d :: a) (hc m hm) (ha.1 hq m hm) s
    rw [List.cons_append] at hout ⊢
    rw [cutFrom, if_neg (not_marker_of_unmarked hout), ih ha.2]
    rfl

theorem cutFrom_plain_append {a : Text} (ha : ∀ c ∈ a, IsPlain markers c) (s : Text) :
    cutFrom markers .outside (a ++ s) =
      (a ++ (cutFrom markers .outside s).1, (cutFrom markers .outside s).2) := by
  induction a with
  | nil => rfl
  | cons c a ih =>
    have hc := ha c List.mem_cons_self
    rw [List.cons_append, cutFrom, if_neg (not_marker_of_unmarked fun _ m hm => hc.2 m hm _),
      Quoting.next, if_neg hc.1, ih fun d hd => ha d (List.mem_cons_of_mem _ hd)]
    rfl

theorem cutFrom_of_marker {s : Text} (h : markers.any (startsWith · s) = true) :
    cutFrom markers .outside s = ([], s) := by
  cases s with
  | nil => rfl
  | cons c s => rw [cutFrom, if_pos ⟨rfl, h⟩]

/-- What is cut off begins with a marker. -/
theorem marker_of_cut (markers : List Text) (b : Bool) (s : Text) :
    (cut markers b s).2 = [] ∨ markers.any (startsWith · (cut markers b s).2) = true := by
  rw [cut_eq_cutFrom]
  generalize Quoting.ofFlag b = q
  fun_induction cutFrom markers q s with
  | case1 => exact .inl rfl
  | case2 q c s hm => exact .inr hm.2
  | case3 q c s _ ih => exact ih

theorem ofLine_of_unmarked {s : Text} (h : Unmarked markers .outside s) :
    ofLine markers s = ⟨s, []⟩ := by
  rw [ofLine, cut_of_unmarked (b := false) h]
  rfl

/-- A line that opens with a marker is a comment. -/
theorem ofLine_of_marker {s : Text} (hne : s ≠ []) (h : markers.any (startsWith · s) = true) :
    ofLine markers s = ⟨[], s⟩ := by
  have hcut : cut markers false s = ([], s) := (cut_eq_cutFrom ..).trans (cutFrom_of_marker h)
  rw [ofLine, hcut]
  simp [hne, trimEnd]

/-- A comment behind blanks is cut off from a text that is not cut itself and ends outside quotes in
a character that no marker has. -/
theorem ofLine_append_comment {a b s : Text} {c : Char} (hc : ∀ m ∈ markers, c ∉ m)
    (hsolid : isBlank c = false) (ha : Unmarked markers .outside (a ++ [c]))
    (hout : Quoting.outside.after (a ++ [c]) = .outside) (hb : IsBlanks b)
    (hplain : ∀ d ∈ b, IsPlain markers d) (hne : s ≠ [])
    (hm : markers.any (startsWith · s) = true) :
    ofLine markers (a ++ c :: (b ++ s)) = ⟨a ++ [c], s⟩ := by
  have hcut : cut markers false (a ++ c :: (b ++ s)) = (a ++ c :: b, s) := by
    have hfrom := cutFrom_append_cons hc ha (b ++ s)
    rw [hout, cutFrom_plain_append hplain, cutFrom_of_marker hm, List.append_nil] at hfrom
    exact (cut_eq_cutFrom ..).trans hfrom
  have htrim : trimEnd (a ++ c :: b) = a ++ [c] := by
    rw [List.append_cons, trimEnd_append_of_blanks hb, trimEnd_eq_self (by simp [hsolid])]
  rw [ofLine, hcut]
  simp [hne, htrim]

section

variable {line : Text}

/-- A line is all node, or it is split where the scanner cuts. -/
theorem ofLine_eq (markers : List Text) (line : Text) :
    (ofLine markers line).comment = [] ∧ (ofLine markers line).node = line
        ∧ (cut markers false line).1 = line ∨
      (ofLine markers line).comment = (cut markers false line).2
        ∧ (ofLine markers line).node = trimEnd (cut markers false line).1
        ∧ (cut markers false line).2 ≠ [] := by
  by_cases h : (cut markers false line).2 = []
  · refine .inl ⟨by simp [ofLine, h], by simp [ofLine, h], ?_⟩
    have := cut_append markers false line
    rwa [h, List.append_nil] at this
  · exact .inr ⟨by simp [ofLine, h], by simp [ofLine, h], h⟩

theorem cut_begins (markers : List Text) (b : Bool) (s : Text) : (cut markers b s).1 <+: s :=
  ⟨_, cut_append markers b s⟩

theorem node_begins (markers : List Text) (line : Text) : (ofLine markers line).node <+: line := by
  rcases ofLine_eq markers line with ⟨-, h, -⟩ | ⟨-, h, -⟩
  · exact ⟨[], by rw [h, List.append_nil]⟩
  · rw [h]
    exact (trimEnd_begins _).trans (cut_begins markers false line)

/-- The node has no marker outside quotes. -/
theorem unmarked_node (markers : List Text) (line : Text) :
    Unmarked markers .outside (ofLine markers line).node := by
  have hu := unmarked_cut markers false line
  rcases ofLine_eq markers line with ⟨-, h, he⟩ | ⟨-, h, -⟩
  · rwa [h, ← he]
  · rw [h]
    exact unmarked_mono (trimEnd_begins _) hu

theorem isTrimmed_node (h : IsTrimmed line) : IsTrimmed (ofLine markers line).node := by
  rcases ofLine_eq markers line with ⟨-, hn, -⟩ | ⟨-, hn, -⟩
  · rwa [hn]
  · rw [hn]
    have hbegins := cut_begins markers false line
    exact isTrimmed_trimEnd fun c hc => h.start c (head?_of_begins hbegins hc)

theorem comment_suffix (markers : List Text) (line : Text) :
    (ofLine markers line).comment <:+ line := by
  rcases ofLine_eq markers line with ⟨h, -, -⟩ | ⟨h, -, -⟩
  · rw [h]
    exact List.nil_suffix
  · rw [h]
    exact ⟨_, cut_append markers false line⟩

/-- A comment begins with a marker. -/
theorem marker_comment (markers : List Text) (line : Text) :
    (ofLine markers line).comment = [] ∨
      markers.any (startsWith · (ofLine markers line).comment) = true := by
  rcases ofLine_eq markers line with ⟨h, -, -⟩ | ⟨h, -, -⟩
  · exact .inl h
  · rw [h]
    exact marker_of_cut markers false line

end

end Fragments

namespace Target

/-- The comment markers of the targets. -/
theorem mem_commentMarkers {t : Target} {m : Text} (h : m ∈ t.commentMarkers) :
    m = [';'] ∨ m = ['#'] ∨ m = ['/', '/'] ∨ m = ['@'] := by
  unfold commentMarkers at h
  split at h <;> simp at h <;> grind

/-- The characters that neither open a comment nor quote. -/
theorem isPlain {t : Target} {c : Char} (h : c ∉ ['"', ';', '#', '/', '@']) :
    Fragments.IsPlain t.commentMarkers c := by
  simp only [List.mem_cons, List.not_mem_nil, or_false, not_or] at h
  refine ⟨h.1, fun m hm s => ?_⟩
  have hne : ∀ d ∈ m.head?, d ≠ c := by
    rcases mem_commentMarkers hm with rfl | rfl | rfl | rfl <;> simp <;> grind
  cases m with
  | nil => simpa using mem_commentMarkers hm
  | cons d m =>
    have hd : (d == c) = false := beq_eq_false_iff_ne.2 (hne d rfl)
    rw [startsWith, List.isPrefixOf_cons_cons, hd, Bool.false_and]

end Target

/-- A quote opens no comment. -/
theorem Fragments.unmarked_quote {t : Target} {s : Text}
    (hs : Unmarked t.commentMarkers .inside s) :
    Unmarked t.commentMarkers .outside ('"' :: s) := by
  refine ⟨fun _ m hm => ?_, hs⟩
  rcases Target.mem_commentMarkers hm with rfl | rfl | rfl | rfl <;> rfl

end AsmLens
