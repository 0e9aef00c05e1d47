import AsmLens.Assembly.Classifier
import AsmLens.Proofs.Assembly.Fragments

/-!
# Operands that are joined again

Operands are cut at the commas outside brackets. A text is cut off whole up to the first such comma
(`isWhole_or_cut`), and what holds of its operands is told piece by piece (`cut_induction`). So
nothing but blanks and commas is lost between them (`filter_operands`), and they are found again
when they are joined with commas (`operands_join`): an instruction that is taken apart and put
together is the same instruction (`parts?_lossless`). Cutting does not heed quotes, yet joining does
not disturb them either: a comma stands at the same place between quotes as before, so no comment
marker comes to light (`unmarked_join_operands`).
-/

namespace AsmLens

open Text

namespace Fragment

/-- The brackets open after a character. -/
def nextDepth (depth : Nat) (c : Char) : Nat :=
  if c = '[' ∨ c = '(' then depth + 1
  else if c = ']' ∨ c = ')' then depth - 1 else depth

/-- The brackets open after a text. -/
def depthAfter (depth : Nat) (s : Text) : Nat :=
  s.foldl nextDepth depth

/-- No comma stands outside brackets. -/
def IsWhole : Nat → Text → Prop
  | _, [] => True
  | depth, c :: s => ¬(c = ',' ∧ depth = 0) ∧ IsWhole (nextDepth depth c) s

/-- What stands between operands that are joined. -/
def separator : Text := ", ".toList

variable {depth : Nat} {a b s : Text}

/-! ## Cutting -/

@[simp] theorem depthAfter_nil : depthAfter depth [] = depth := rfl

@[simp] theorem depthAfter_cons (c : Char) :
    depthAfter depth (c :: s) = depthAfter (nextDepth depth c) s := rfl

theorem depthAfter_append : depthAfter depth (a ++ b) = depthAfter (depthAfter depth a) b :=
  List.foldl_append

/-- A text is whole if both of its parts are. -/
theorem isWhole_append :
    IsWhole depth (a ++ b) ↔ IsWhole depth a ∧ IsWhole (depthAfter depth a) b := by
  induction a generalizing depth with
  | nil => simp [IsWhole]
  | cons c a ih => rw [List.cons_append, IsWhole, ih, IsWhole, depthAfter_cons, and_assoc]

/-- One character of the scan: a comma outside brackets starts a new part. -/
theorem cutOperands_eq (depth : Nat) (c : Char) (s : Text) :
    cutOperands depth (c :: s) =
      if c = ',' ∧ nextDepth depth c = 0 then [] :: cutOperands (nextDepth depth c) s
      else match cutOperands (nextDepth depth c) s with
        | w :: ws => (c :: w) :: ws
        | [] => [[c]] := by
  rw [cutOperands]
  rfl

theorem cutOperands_ne_nil (depth : Nat) (s : Text) : cutOperands depth s ≠ [] := by
  cases s with
  | nil => simp [cutOperands]
  | cons c s =>
    rw [cutOperands_eq]
    split
    · simp
    · split <;> simp

/-- A comma outside brackets ends a piece. -/
theorem cutOperands_comma (s : Text) : cutOperands 0 (',' :: s) = [] :: cutOperands 0 s := by
  rw [cutOperands]
  simp

/-- Any other character goes on with one. -/
theorem cutOperands_cons {c : Char} (hc : ¬(c = ',' ∧ depth = 0)) (s : Text) :
    cutOperands depth (c :: s) = (cutOperands (nextDepth depth c) s).modifyHead (c :: ·) := by
  have hcut : ¬(c = ',' ∧ nextDepth depth c = 0) := by
    rintro ⟨rfl, h⟩
    exact hc ⟨rfl, by simpa [nextDepth] using h⟩
  obtain ⟨w, ws, hw⟩ := List.exists_cons_of_ne_nil (cutOperands_ne_nil (nextDepth depth c) s)
  rw [cutOperands_eq, if_neg hcut, hw]
  rfl

/-- A whole text is not cut. -/
theorem cutOperands_of_isWhole (h : IsWhole depth s) : cutOperands depth s = [s] := by
  induction s generalizing depth with
  | nil => rfl
  | cons c s ih =>
    rw [cutOperands_cons h.1, ih h.2]
    rfl

/-- At a comma outside brackets the first part is complete. -/
theorem cutOperands_append (h : IsWhole depth a) (hd : depthAfter depth a = 0) (s : Text) :
    cutOperands depth (a ++ ',' :: s) = a :: cutOperands 0 s := by
  induction a generalizing depth with
  | nil =>
    cases hd
    exact cutOperands_comma s
  | cons c a ih =>
    rw [List.cons_append, cutOperands_cons h.1, ih h.2 hd]
    rfl

/-- A text has no comma outside brackets, or it is cut at the first. -/
theorem isWhole_or_cut (depth : Nat) (s : Text) :
    IsWhole depth s ∨
      ∃ a r, s = a ++ ',' :: r ∧ IsWhole depth a ∧ depthAfter depth a = 0 := by
  induction s generalizing depth with
  | nil => exact .inl trivial
  | cons c s ih =>
    by_cases hc : c = ',' ∧ depth = 0
    · exact .inr ⟨[], s, by rw [hc.1, List.nil_append], trivial, hc.2⟩
    · rcases ih (nextDepth depth c) with h | ⟨a, r, rfl, ha, hd⟩
      · exact .inl ⟨hc, h⟩
      · exact .inr ⟨c :: a, r, rfl, ⟨hc, ha⟩, hd⟩

/-- What holds of the texts that are not cut, and of a text if it holds of what follows its first
cut, holds of all. -/
@[elab_as_elim]
theorem cut_induction {P : Text → Prop} (whole : ∀ s, IsWhole 0 s → P s)
    (cut : ∀ a r, IsWhole 0 a → depthAfter 0 a = 0 → P r → P (a ++ ',' :: r)) (s : Text) : P s := by
  induction h : s.length using Nat.strongRecOn generalizing s with
  | _ n ih =>
    rcases isWhole_or_cut 0 s with hs | ⟨a, r, rfl, ha, hd⟩
    · exact whole s hs
    · refine cut a r ha hd (ih r.length ?_ r rfl)
      rw [List.length_append, List.length_cons] at h
      omega

/-- Every comma of a whole text stands inside brackets. -/
theorem isWhole_iff :
    IsWhole depth s ↔ ∀ x y, s = x ++ ',' :: y → 0 < depthAfter depth x := by
  constructor
  · rintro h x y rfl
    have hcomma := (isWhole_append.1 h).2.1
    exact Nat.pos_of_ne_zero fun hd => hcomma ⟨rfl, hd⟩
  · intro h
    rcases isWhole_or_cut depth s with hs | ⟨a, r, hs, -, hd⟩
    · exact hs
    · have := h a r hs
      omega

/-! ## Blanks -/

theorem nextDepth_of_blank {c : Char} (hc : isBlank c = true) (depth : Nat) :
    nextDepth depth c = depth := by
  have hne : ∀ d, isBlank d = false → c ≠ d := by
    rintro d hd rfl
    exact Bool.false_ne_true (hd.symm.trans hc)
  rw [nextDepth, if_neg, if_neg]
  · rintro (h | h)
    · exact hne ']' (by decide) h
    · exact hne ')' (by decide) h
  · rintro (h | h)
    · exact hne '[' (by decide) h
    · exact hne '(' (by decide) h

theorem depthAfter_of_blanks (h : IsBlanks b) (depth : Nat) : depthAfter depth b = depth := by
  induction b with
  | nil => rfl
  | cons c b ih =>
    rw [depthAfter_cons, nextDepth_of_blank (h c List.mem_cons_self)]
    exact ih fun d hd => h d (List.mem_cons_of_mem _ hd)

/-- Blanks open and close no brackets. -/
theorem depthAfter_trim (depth : Nat) (s : Text) :
    depthAfter depth (trim s) = depthAfter depth s := by
  obtain ⟨a, b, ha, hb, hs⟩ := blanks_append_trim s
  calc
    depthAfter depth (trim s) = depthAfter depth (a ++ (trim s ++ b)) := by
      rw [depthAfter_append, depthAfter_append, depthAfter_of_blanks ha, depthAfter_of_blanks hb]
    _ = depthAfter depth s := by rw [← hs]

theorem isWhole_trim (h : IsWhole depth s) : IsWhole depth (trim s) := by
  obtain ⟨a, b, ha, -, hs⟩ := blanks_append_trim s
  rw [hs, isWhole_append, isWhole_append, depthAfter_of_blanks ha] at h
  exact h.2.1

/-! ## Operands -/

/-- The operand of a piece: none if it is blank. -/
def operandOf (s : Text) : List Text :=
  if trim s = [] then [] else [trim s]

theorem operands_of_isWhole (h : IsWhole 0 s) : operands s = operandOf s := by
  rw [operands, cutOperands_of_isWhole h, operandOf]
  by_cases ht : trim s = [] <;> simp [ht]

/-- The operand in front of a comma, and those behind it. -/
theorem operands_append (h : IsWhole 0 a) (hd : depthAfter 0 a = 0) (s : Text) :
    operands (a ++ ',' :: s) = operandOf a ++ operands s := by
  rw [operands, cutOperands_append h hd, operandOf]
  by_cases ht : trim a = [] <;> simp [ht, operands]

theorem operands_cons_of_blank {c : Char} (hc : isBlank c = true) (s : Text) :
    operands (c :: s) = operands s := by
  have hcomma : ¬(c = ',' ∧ (0 : Nat) = 0) := by
    rintro ⟨rfl, -⟩
    exact absurd hc (by decide)
  obtain ⟨w, ws, hw⟩ := List.exists_cons_of_ne_nil (cutOperands_ne_nil 0 s)
  have htrim : trim (c :: w) = trim w :=
    trim_append_of_blanks (b := [c]) (fun d hd => List.mem_singleton.1 hd ▸ hc) w
  rw [operands, cutOperands_cons hcomma, nextDepth_of_blank hc, hw, List.modifyHead_cons,
    List.map_cons, htrim, operands, hw, List.map_cons]

/-- Operands that are found again when they are joined. Brackets may be left open in the last. -/
inductive Joinable : List Text → Prop where
  | nil : Joinable []
  | last {a : Text} (trimmed : IsTrimmed a) (ne : a ≠ []) (whole : IsWhole 0 a) : Joinable [a]
  | cons {a : Text} {as : List Text} (trimmed : IsTrimmed a) (ne : a ≠ []) (whole : IsWhole 0 a)
      (closed : depthAfter 0 a = 0) (rest : Joinable as) : Joinable (a :: as)

theorem joinable_operandOf (h : IsWhole 0 s) : Joinable (operandOf s) := by
  unfold operandOf
  split
  · exact .nil
  · rename_i hne
    exact .last (isTrimmed_trim s) hne (isWhole_trim h)

theorem joinable_operandOf_append {as : List Text} (h : IsWhole 0 a) (hd : depthAfter 0 a = 0)
    (has : Joinable as) : Joinable (operandOf a ++ as) := by
  unfold operandOf
  split
  · exact has
  · rename_i hne
    exact .cons (isTrimmed_trim a) hne (isWhole_trim h) ((depthAfter_trim 0 a).trans hd) has

/-- Operands can be joined and read again. -/
theorem joinable_operands (s : Text) : Joinable (operands s) := by
  induction s using cut_induction with
  | whole s hs =>
    rw [operands_of_isWhole hs]
    exact joinable_operandOf hs
  | cut a r ha hd ih =>
    rw [operands_append ha hd]
    exact joinable_operandOf_append ha hd ih

/-- Each of them is trimmed, not empty and whole. -/
theorem Joinable.forall_mem {as : List Text} (h : Joinable as) :
    ∀ a ∈ as, IsTrimmed a ∧ a ≠ [] ∧ IsWhole 0 a := by
  induction h with
  | nil => exact fun a ha => absurd ha List.not_mem_nil
  | last trimmed ne whole =>
    intro a ha
    rw [List.mem_singleton.1 ha]
    exact ⟨trimmed, ne, whole⟩
  | cons trimmed ne whole _ _ ih => exact List.forall_mem_cons.2 ⟨⟨trimmed, ne, whole⟩, ih⟩

/-- All operands but the last close their brackets. -/
theorem Joinable.closed {as : List Text} (h : Joinable as) :
    ∀ a ∈ as.dropLast, depthAfter 0 a = 0 := by
  induction h with
  | nil => exact fun a ha => absurd ha List.not_mem_nil
  | last => exact fun a ha => absurd ha List.not_mem_nil
  | @cons a as _ _ _ closed _ ih =>
    by_cases has : as = []
    · rw [has]
      exact fun a ha => absurd ha List.not_mem_nil
    · rw [List.dropLast_cons_of_ne_nil has]
      exact List.forall_mem_cons.2 ⟨closed, ih⟩

theorem operandOf_eq (ht : IsTrimmed s) (hne : s ≠ []) : operandOf s = [s] := by
  rw [operandOf, ht.trim_eq, if_neg hne]

theorem join_cons {as : List Text} (h : as ≠ []) (a : Text) :
    join separator (a :: as) = a ++ ',' :: ' ' :: join separator as := by
  rw [join, List.intercalate_cons_of_ne_nil h, join, List.append_assoc]
  rfl

/-- Joined operands are cut at the commas between them. -/
theorem operands_join {as : List Text} (h : Joinable as) : operands (join separator as) = as := by
  induction h with
  | nil => rfl
  | last trimmed ne whole =>
    rw [join, List.intercalate_singleton, operands_of_isWhole whole, operandOf_eq trimmed ne]
  | @cons a as trimmed ne whole closed rest ih =>
    by_cases has : as = []
    · rw [has, join, List.intercalate_singleton, operands_of_isWhole whole,
        operandOf_eq trimmed ne]
    · rw [join_cons has, operands_append whole closed, operands_cons_of_blank (by decide), ih,
        operandOf_eq trimmed ne]
      rfl

/-- Joined operands begin and end as the first and the last of them. -/
theorem isTrimmed_join {as : List Text} (h : Joinable as) (hne : as ≠ []) :
    IsTrimmed (join separator as) ∧ join separator as ≠ [] := by
  induction h with
  | nil => exact absurd rfl hne
  | last trimmed ne whole =>
    rw [join, List.intercalate_singleton]
    exact ⟨trimmed, ne⟩
  | @cons a as trimmed ne whole closed rest ih =>
    by_cases has : as = []
    · rw [has, join, List.intercalate_singleton]
      exact ⟨trimmed, ne⟩
    · obtain ⟨ht, hj⟩ := ih has
      rw [join_cons has]
      exact ⟨trimmed.append ne [',', ' '] ht hj, by simp⟩

/-- The characters of an operand are from the text. -/
theorem mem_of_mem_operands {a : Text} {c : Char} (ha : a ∈ operands s) (hc : c ∈ a) : c ∈ s := by
  have hpiece : ∀ {w : Text}, a ∈ operandOf w → c ∈ w := by
    intro w haw
    unfold operandOf at haw
    split at haw
    · cases haw
    · rw [List.mem_singleton.1 haw] at hc
      exact mem_of_mem_trim hc
  induction s using cut_induction with
  | whole s hs =>
    rw [operands_of_isWhole hs] at ha
    exact hpiece ha
  | cut w r hw hd ih =>
    rw [operands_append hw hd, List.mem_append] at ha
    rcases ha with ha | ha
    · exact List.mem_append_left _ (hpiece ha)
    · exact List.mem_append_right _ (List.mem_cons_of_mem _ (ih ha))

/-! ## What is kept -/

/-- Neither a blank nor a comma. -/
def isContent (c : Char) : Bool :=
  !isBlank c && c != ','

theorem filter_isContent_blanks (h : IsBlanks b) : b.filter isContent = [] := by
  apply List.filter_eq_nil_iff.2
  intro c hc
  simp [isContent, h c hc]

theorem filter_isContent_trim (s : Text) : (trim s).filter isContent = s.filter isContent := by
  obtain ⟨a, b, ha, hb, hs⟩ := blanks_append_trim s
  calc
    (trim s).filter isContent = (a ++ (trim s ++ b)).filter isContent := by
      simp only [List.filter_append, filter_isContent_blanks ha, filter_isContent_blanks hb,
        List.nil_append, List.append_nil]
    _ = s.filter isContent := by rw [← hs]

/-- An operand keeps all that is no blank or comma. -/
theorem filter_operandOf (s : Text) :
    (operandOf s).flatten.filter isContent = s.filter isContent := by
  rw [← filter_isContent_trim s, operandOf]
  split
  · rename_i hblank
    rw [hblank, List.flatten_nil]
  · rw [List.flatten_singleton]

/-- Between the operands only blanks and commas are lost. -/
theorem filter_operands (s : Text) :
    (operands s).flatten.filter isContent = s.filter isContent := by
  induction s using cut_induction with
  | whole s hs => rw [operands_of_isWhole hs, filter_operandOf]
  | cut a r ha hd ih =>
    rw [operands_append ha hd, List.flatten_append, List.filter_append, filter_operandOf, ih,
      List.filter_append, List.filter_cons_of_neg (by decide)]

/-! ## Instructions -/

/-- An instruction is a mnemonic, blanks and what its operands are cut from. -/
theorem eq_append_of_parts? {m : Text} {args : List Text} (h : parts? s = some (m, args)) :
    isMnemonic m = true ∧ IsSolid m ∧ m ≠ [] ∧ ∃ a b rest, IsBlanks a ∧ IsBlanks b ∧
      s = a ++ (m ++ (b ++ rest)) ∧ args = operands rest := by
  unfold parts? at h
  split at h
  · rename_i w rest hfirst
    split at h
    · rename_i hm
      cases h
      obtain ⟨hsolid, hne, a, b, ha, hb, hs⟩ := eq_append_of_firstWord? hfirst
      exact ⟨hm, hsolid, hne, a, b, rest, ha, hb, hs, rfl⟩
    · cases h
  · cases h

/-- A mnemonic and joined operands behind blanks are found again. -/
theorem parts?_append_join {m : Text} {args : List Text} (hm : isMnemonic m = true)
    (hs : IsSolid m) (hne : m ≠ []) (hj : Joinable args) (hb : IsBlanks b)
    (hsep : b = [] → args = []) :
    parts? (m ++ (b ++ join separator args)) = some (m, args) := by
  have hstart : ∀ c ∈ (join separator args).head?, isBlank c = false := by
    by_cases hargs : args = []
    · rw [hargs]
      exact fun c hc => by cases hc
    · exact (isTrimmed_join hj hargs).1.start
  have hnil : b = [] → join separator args = [] := fun h => by
    rw [hsep h]
    rfl
  rw [parts?, firstWord?_append hs hne hb hstart hnil]
  simp only
  rw [if_pos hm, operands_join hj]

/-- **An instruction taken apart.** Its operands are trimmed and not empty, a comma inside one stands
inside brackets that the operand opens, and all but the last close their brackets. Nothing but
blanks and commas is lost beside the mnemonic and the operands, and joining these gives the same
instruction. -/
theorem parts?_lossless {m : Text} {args : List Text} (h : parts? s = some (m, args)) :
    (∀ a ∈ args, a ≠ [] ∧ IsTrimmed a) ∧
    (∀ a ∈ args, ∀ x y, a = x ++ ',' :: y → 0 < depthAfter 0 x) ∧
    (∀ a ∈ args.dropLast, depthAfter 0 a = 0) ∧
    s.filter isContent = (m ++ args.flatten).filter isContent ∧
    parts? (m ++ ' ' :: join separator args) = some (m, args) := by
  obtain ⟨hm, hsolid, hne, a, b, rest, ha, hb, hs, hargs⟩ := eq_append_of_parts? h
  have hj : Joinable args := hargs ▸ joinable_operands rest
  refine ⟨fun w hw => ?_, fun w hw => ?_, hj.closed, ?_, ?_⟩
  · obtain ⟨htrimmed, hwne, -⟩ := hj.forall_mem w hw
    exact ⟨hwne, htrimmed⟩
  · exact isWhole_iff.1 (hj.forall_mem w hw).2.2
  · rw [hs, hargs]
    simp only [List.filter_append, filter_isContent_blanks ha, filter_isContent_blanks hb,
      filter_operands, List.nil_append]
  · exact parts?_append_join hm hsolid hne hj (isBlanks_replicate 1) fun h => by cases h

/-- An empty operand, a bracket closed by another and one closed twice, commas inside brackets, and
a last operand that closes none of its own. -/
theorem parts?_lossless_of_unbalanced :
    let s : Text := "\tlea  rax ,, [rdi + 8*rcx, (1] , ) b)], 4(%rsp, [%rax ".toList
    let m : Text := "lea".toList
    let args : List Text :=
      ["rax".toList, "[rdi + 8*rcx, (1] , ) b)]".toList, "4(%rsp, [%rax".toList]
    parts? s = some (m, args) ∧
    (∀ a ∈ args, a ≠ [] ∧ IsTrimmed a) ∧
    (∀ a ∈ args, ∀ x y, a = x ++ ',' :: y → 0 < depthAfter 0 x) ∧
    (∀ a ∈ args.dropLast, depthAfter 0 a = 0) ∧
    s.filter isContent = (m ++ args.flatten).filter isContent ∧
    parts? (m ++ ' ' :: join separator args) = some (m, args) := by
  intro s m args
  have h : parts? s = some (m, args) := by decide +kernel
  exact ⟨h, parts?_lossless h⟩

/-! ## Comment markers -/

theorem comma_notMem_commentMarkers {t : Target} : ∀ m ∈ t.commentMarkers, ',' ∉ m := by
  intro m hm
  rcases Target.mem_commentMarkers hm with rfl | rfl | rfl | rfl <;> decide

/-- A text without comment markers has none after its operands were joined again. -/
theorem unmarked_join_operands {t : Target} {q : Quoting} {s : Text} (hq : q ≠ .guarded)
    (h : Fragments.Unmarked t.commentMarkers q s) :
    Fragments.Unmarked t.commentMarkers q (join separator (operands s)) := by
  induction s using cut_induction generalizing q with
  | whole s hs =>
    rw [operands_of_isWhole hs, operandOf]
    split
    · exact trivial
    · rw [join, List.intercalate_singleton]
      exact Fragments.unmarked_trim hq h
  | cut a r ha hd ih =>
    obtain ⟨hua, hur⟩ := Fragments.unmarked_append h
    have hrest := ih (Fragments.next_comma_ne_guarded (q.after a)) hur.2
    rw [operands_append ha hd, operandOf]
    split
    · -- a blank piece is dropped, and the next begins where it began
      rename_i hblank
      have hsame : (q.after a).next ',' = q.next ',' := by
        rw [← Fragments.next_comma_after_trim hq a, hblank, Quoting.after_nil]
      have hkeep : q.next ',' = q := by
        cases q with
        | outside => rfl
        | inside => rfl
        | guarded => exact absurd rfl hq
      rw [hsame, hkeep] at hrest
      exact hrest
    · by_cases hr : operands r = []
      · rw [hr, List.append_nil, join, List.intercalate_singleton]
        exact Fragments.unmarked_trim hq hua
      · rw [List.singleton_append, join_cons hr]
        refine Fragments.unmarked_append_cons comma_notMem_commentMarkers
          (Fragments.unmarked_trim hq hua) ?_
        apply Fragments.unmarked_cons (Target.isPlain (by decide))
        apply Fragments.unmarked_cons (Target.isPlain (by decide))
        have hspace : ((q.after a).next ',').next ' ' = (q.after a).next ',' :=
          Fragments.after_blanks (Fragments.next_comma_ne_guarded _) (isBlanks_replicate 1)
        rw [Fragments.next_comma_after_trim hq, hspace]
        exact hrest

end Fragment

end AsmLens
