import AsmLens.Proofs.Json.Printing
import AsmLens.Proofs.Json.Reading

/-!
# Values written and read

A value without binary fractions is read back from its text (`parse_print`) if its integers are not
too long, its strings and names are joined, the names of each object in it differ, and it is nested
no deeper than the reader goes. Each value is read up to the comma or the line feed that closes it
(`readBack_of_isReadable`), so the items of an array and the fields of an object are read one after
the other.
-/

namespace AsmLens.Json

open Text

/-- What may follow a value: a comma, a line feed or nothing. -/
def Closes (r : Text) : Prop :=
  ∀ c ∈ r.head?, c = ',' ∨ c = '\n'

theorem closes_nil : Closes [] := by simp [Closes]

theorem closes_cons {c : Char} (h : c = ',' ∨ c = '\n') (r : Text) : Closes (c :: r) := by
  simpa [Closes] using h

/-- Within a depth, the value is read back from its text at a level, whatever closes it. -/
def ReadBack (depth level : Nat) (v : Json) : Prop :=
  ∀ n r, (render level v).length ≤ n → Closes r →
    valueAt depth (n + 1) (render level v ++ r) = .ok (v, r)

variable {v : Json} {vs : List Json} {fs : Fields} {d level n : Nat} {c : Char}
  {k : Str} {r s t t' u u' : Text}

/-! ## Blanks -/

theorem skip_cons (h : isSpace c = false) (s : Text) : skip (c :: s) = c :: s :=
  List.dropWhile_cons_of_neg (by simp [h])

/-- A line break with its indentation is skipped. -/
theorem skip_newline (level : Nat) (s : Text) : skip (newline level ++ s) = skip s := by
  refine List.dropWhile_append_of_pos fun c hc => ?_
  rcases List.mem_cons.1 hc with rfl | hc
  · decide
  · rw [List.eq_of_mem_replicate hc]
    decide

theorem closes_newline (level : Nat) (s : Text) : Closes (newline level ++ s) :=
  closes_cons (.inr rfl) _

/-- No blank begins the text of a value. -/
theorem skip_render (h : IsExact v) (level : Nat) (r : Text) :
    skip (render level v ++ r) = render level v ++ r := by
  obtain ⟨c, s, hs, hc⟩ := leads_render level h
  rw [hs]
  refine skip_cons ?_ _
  cases hc with
  | digit hc =>
    refine Bool.eq_false_iff.2 fun hspace => ?_
    simp only [isSpace, Bool.or_eq_true, beq_iff_eq] at hspace
    rcases hspace with ((rfl | rfl) | rfl) | rfl <;> exact absurd hc (by decide)
  | _ => decide

/-! ## Words and integers -/

/-- What begins no string, array or object is a word or a number. -/
theorem valueAt_scalar (hquote : c ≠ '"') (harr : c ≠ '[') (hobj : c ≠ '\x7b') (d n : Nat)
    (s : Text) : valueAt d (n + 1) (c :: s) = scalar (c :: s) := by
  rw [valueAt]
  · exact fun r he => hquote (List.cons.inj he).1
  · exact fun r he => harr (List.cons.inj he).1
  · exact fun r he => hobj (List.cons.inj he).1

theorem ne_of_isDigit {e : Char} (he : e.isDigit = false) (hc : c.isDigit = true) : e ≠ c := by
  rintro rfl
  rw [hc] at he
  cases he

/-- No word begins with a digit, with a minus sign before it or without. -/
theorem find?_constants_digit (hc : c.isDigit = true) (s : Text) :
    (constants.find? fun w => startsWith w.1 (c :: s)) = none ∧
      (constants.find? fun w => startsWith w.1 ('-' :: c :: s)) = none := by
  have hne : ∀ e : Char, e.isDigit = false → e ≠ c := fun e he => ne_of_isDigit he hc
  constructor
  · simp [constants, startsWith, hne]
  · simp [constants, startsWith, hne]

/-- What begins with a digit is a number. -/
theorem scalar_digit (hc : c.isDigit = true) (s : Text) :
    scalar (c :: s) = (unsigned? false (c :: s)).getD (.error ⟨.noValue, (c :: s).length⟩) := by
  rw [scalar, (find?_constants_digit hc s).1]
  exact fun r he => ne_of_isDigit (by decide) hc (List.cons.inj he).1.symm

/-- What begins with a minus sign and a digit is a number. -/
theorem scalar_minus (hc : c.isDigit = true) (s : Text) :
    scalar ('-' :: c :: s) =
      (unsigned? true (c :: s)).getD (.error ⟨.noValue, ('-' :: c :: s).length⟩) := by
  rw [scalar, (find?_constants_digit hc s).2]

theorem ends_of_closes (h : Closes r) : Ends r := by
  intro c hc
  rcases h c hc with rfl | rfl <;> decide

/-- The digits of a numeral are read back up to what ends it. -/
theorem wholePart?_natural (k : Nat) (hr : Ends r) :
    wholePart? (natural k ++ r) = some (natural k, r) := by
  obtain ⟨c, s, hs⟩ := List.exists_cons_of_ne_nil (natural_ne_nil k)
  by_cases hc : c = '0'
  · subst hc
    obtain ⟨rfl, rfl⟩ := eq_zero_of_natural hs
    rfl
  · have hdigit := isDigit_of_mem_natural (hs ▸ List.mem_cons_self : c ∈ natural k)
    have hrun := digitRun_natural k hr
    rw [hs, List.cons_append] at hrun ⊢
    rw [wholePart?, if_pos hdigit, hrun]
    exact fun he => absurd he hc

theorem fraction_of_closes (h : Closes r) : fraction r = ([], r) := by
  rw [fraction]
  rintro s rfl
  rcases h '.' rfl with h | h <;> cases h

theorem exponent_of_closes (h : Closes r) : exponent r = ([], r) := by
  cases r with
  | nil => rfl
  | cons c r => rcases h c rfl with rfl | rfl <;> rfl

/-- A number that is short is read from its digits. -/
theorem unsigned?_natural {k : Nat} (hk : IsShort k) (hr : Closes r) (negative : Bool) :
    unsigned? negative (natural k ++ r) =
      some (.ok (.int (if negative then -(k : Int) else k), r)) := by
  have hwhole : wholeNumber negative (natural k) =
      .ok (.int (if negative then -(k : Int) else k)) := by
    rw [wholeNumber, ofDigits_natural]
    exact if_pos hk
  rw [unsigned?, wholePart?_natural k (ends_of_closes hr), Option.map_some]
  simp only [fraction_of_closes hr, exponent_of_closes hr, List.isEmpty_nil, Bool.and_self, if_true,
    hwhole]
  rfl

theorem readBack_null (d level : Nat) : ReadBack d level null := by
  intro n r _ _
  exact valueAt_scalar (by decide) (by decide) (by decide) d n _

theorem readBack_bool (b : Bool) (d level : Nat) : ReadBack d level (bool b) := by
  intro n r _ _
  cases b
  · exact valueAt_scalar (by decide) (by decide) (by decide) d n _
  · exact valueAt_scalar (by decide) (by decide) (by decide) d n _

/-- A short integer is read back. -/
theorem readBack_int {i : Int} (h : IsShort i.natAbs) (d level : Nat) :
    ReadBack d level (int i) := by
  intro n r _ hr
  have hdigits : ∀ k : Nat, ∃ c s, natural k = c :: s ∧ c.isDigit = true := by
    intro k
    obtain ⟨c, s, hs⟩ := List.exists_cons_of_ne_nil (natural_ne_nil k)
    exact ⟨c, s, hs, isDigit_of_mem_natural (hs ▸ List.mem_cons_self : c ∈ natural k)⟩
  cases i with
  | ofNat k =>
    obtain ⟨c, s, hs, hc⟩ := hdigits k
    have hnumber := unsigned?_natural (k := k) h hr false
    have hne : ∀ e : Char, e.isDigit = false → c ≠ e := fun e he => (ne_of_isDigit he hc).symm
    rw [hs, List.cons_append] at hnumber
    rw [render, integer, hs, List.cons_append, valueAt_scalar (hne _ rfl) (hne _ rfl) (hne _ rfl),
      scalar_digit hc, hnumber]
    rfl
  | negSucc k =>
    obtain ⟨c, s, hs, hc⟩ := hdigits (k + 1)
    have hnumber := unsigned?_natural (k := k + 1) h hr true
    rw [hs, List.cons_append] at hnumber
    rw [render, integer, hs, List.cons_append, List.cons_append,
      valueAt_scalar (by decide) (by decide) (by decide), scalar_minus hc, hnumber]
    rfl

/-- A string is read back through its escapes. -/
theorem readBack_str (hk : k.IsJoined) (d level : Nat) : ReadBack d level (str k) := by
  intro n r _ _
  have htext : render level (str k) ++ r = '"' :: (k.flatMap escapePoint ++ '"' :: r) := by
    simp [render, quote]
  rw [htext, valueAt, stringBody_escaped hk]
  rfl

/-! ## Items and fields one by one -/

theorem itemsAt_last (hv : valueAt d n s = .ok (v, t)) (ht : skip t = ']' :: r) :
    itemsAt d (n + 1) s = .ok ([v], r) := by
  rw [itemsAt, hv, ok_bind]
  dsimp only
  rw [ht]
  rfl

/-- An item in front of a comma, and those behind it. -/
theorem itemsAt_next (hv : valueAt d n s = .ok (v, t)) (ht : skip t = ',' :: t')
    (hvs : itemsAt d n (skip t') = .ok (vs, r)) : itemsAt d (n + 1) s = .ok (v :: vs, r) := by
  rw [itemsAt, hv, ok_bind]
  dsimp only
  rw [ht]
  exact bind_eq_ok.2 ⟨_, hvs, rfl⟩

theorem membersAt_last (hk : stringBody (s.length + 1) s = .ok (k, t)) (ht : skip t = ':' :: t')
    (hv : valueAt d n (skip t') = .ok (v, u)) (hu : skip u = '\x7d' :: r) :
    membersAt d (n + 1) ('"' :: s) = .ok ([(k, v)], r) := by
  rw [membersAt]
  refine bind_eq_ok.2 ⟨_, hk, ?_⟩
  dsimp only
  rw [ht]
  refine bind_eq_ok.2 ⟨_, hv, ?_⟩
  dsimp only
  rw [hu]
  rfl

/-- A member in front of a comma, and those behind it. -/
theorem membersAt_next (hk : stringBody (s.length + 1) s = .ok (k, t)) (ht : skip t = ':' :: t')
    (hv : valueAt d n (skip t') = .ok (v, u)) (hu : skip u = ',' :: u')
    (hfs : membersAt d n (skip u') = .ok (fs, r)) :
    membersAt d (n + 1) ('"' :: s) = .ok ((k, v) :: fs, r) := by
  rw [membersAt]
  refine bind_eq_ok.2 ⟨_, hk, ?_⟩
  dsimp only
  rw [ht]
  refine bind_eq_ok.2 ⟨_, hv, ?_⟩
  dsimp only
  rw [hu]
  exact bind_eq_ok.2 ⟨_, hfs, rfl⟩

/-! ## Arrays and objects -/

/-- The items of an array are read back one after the other. -/
theorem itemsAt_trailing {x : Json} {xs : List Json} (hexact : ∀ v ∈ x :: xs, IsExact v)
    (hread : ∀ v ∈ x :: xs, ReadBack d level v)
    (hn : (render level x ++ trailing level (render level) xs).length ≤ n) (l : Nat) :
    itemsAt d (n + 2)
        (render level x ++ (trailing level (render level) xs ++ (newline l ++ ']' :: r))) =
      .ok (x :: xs, r) := by
  induction xs generalizing x n with
  | nil =>
    rw [List.length_append] at hn
    refine itemsAt_last (hread x List.mem_cons_self n _ (by omega) (closes_newline l _)) ?_
    exact (skip_newline l _).trans (skip_cons (by decide) _)
  | cons y xs ih =>
    simp only [trailing_cons, List.length_append, List.length_cons] at hn
    rw [trailing_cons, List.cons_append, List.append_assoc, List.append_assoc]
    refine itemsAt_next (hread x List.mem_cons_self n _ (by omega) (closes_cons (.inl rfl) _))
      (skip_cons (by decide) _) ?_
    rw [skip_newline, skip_render (hexact y (by simp))]
    -- The comma leaves enough of the bound for the rest.
    obtain ⟨m, rfl⟩ : ∃ m, n = m + 1 := ⟨n - 1, by omega⟩
    exact ih (List.forall_mem_cons.1 hexact).2 (List.forall_mem_cons.1 hread).2
      (by rw [List.length_append]; omega)

theorem renderField_append (level : Nat) (f : Str × Json) (r : Text) :
    renderField level f ++ r =
      '"' :: (f.1.flatMap escapePoint ++ '"' :: ':' :: ' ' :: (render level f.2 ++ r)) := by
  simp [renderField, quote]

theorem skip_space_render (h : IsExact v) (level : Nat) (r : Text) :
    skip (' ' :: (render level v ++ r)) = render level v ++ r :=
  skip_render h level r

/-- The fields of an object are read back one after the other. -/
theorem membersAt_trailing {f : Str × Json} (hnames : ∀ g ∈ f :: fs, g.1.IsJoined)
    (hexact : ∀ g ∈ f :: fs, IsExact g.2) (hread : ∀ g ∈ f :: fs, ReadBack d level g.2)
    (hn : (renderField level f ++ trailing level (renderField level) fs).length ≤ n) (l : Nat) :
    membersAt d (n + 2) (renderField level f ++
        (trailing level (renderField level) fs ++ (newline l ++ '\x7d' :: r))) =
      .ok (f :: fs, r) := by
  induction fs generalizing f n with
  | nil =>
    have hname := hnames f List.mem_cons_self
    simp only [renderField, List.length_append, List.length_cons] at hn
    rw [renderField_append]
    refine membersAt_last (stringBody_escaped hname) (skip_cons (by decide) _) ?_
      ((skip_newline l _).trans (skip_cons (by decide) _))
    rw [skip_space_render (hexact f List.mem_cons_self)]
    exact hread f List.mem_cons_self n _ (by omega) (closes_newline l _)
  | cons g fs ih =>
    have hname := hnames f List.mem_cons_self
    simp only [trailing_cons, renderField, List.length_append, List.length_cons] at hn
    rw [renderField_append, trailing_cons, List.cons_append, List.append_assoc, List.append_assoc]
    have hvalue := hread f List.mem_cons_self n
      (',' :: (newline level ++ (renderField level g ++
        (trailing level (renderField level) fs ++ (newline l ++ '\x7d' :: r)))))
      (by omega) (closes_cons (.inl rfl) _)
    refine membersAt_next (stringBody_escaped hname) (skip_cons (by decide) _)
      (by rw [skip_space_render (hexact f List.mem_cons_self), hvalue])
      (skip_cons (by decide) _) ?_
    rw [skip_newline, renderField_append, skip_cons (by decide), ← renderField_append]
    -- The comma leaves enough of the bound for the rest.
    obtain ⟨m, rfl⟩ : ∃ m, n = m + 1 := ⟨n - 1, by omega⟩
    exact ih (List.forall_mem_cons.1 hnames).2 (List.forall_mem_cons.1 hexact).2
      (List.forall_mem_cons.1 hread).2
      (by simp only [renderField, List.length_append, List.length_cons]; omega)

/-- The brackets leave enough of the bound for what stands between them. -/
theorem bound_inside {α : Type} {item : α → Text} {first last : Char} {x : α} {xs : List α}
    (h : (bracketed first last level item (x :: xs)).length ≤ n) :
    ∃ m, n = m + 2 ∧ (item x ++ trailing (level + 1) item xs).length ≤ m := by
  simp only [bracketed, newline, List.length_append, List.length_cons, List.cons_append] at h
  exact ⟨n - 2, by omega, by rw [List.length_append]; omega⟩

/-- An array that does not end at once is read from its first item. -/
theorem valueAt_arr (h : ∀ t, skip s ≠ ']' :: t) (d n : Nat) :
    valueAt (d + 1) (n + 1) ('[' :: s) =
      (itemsAt d n (skip s)).map fun (vs, r) => (.arr vs, r) := by
  rw [valueAt, if_neg (Nat.succ_ne_zero d), Nat.add_sub_cancel]
  split
  · rename_i hs
    exact absurd hs (h _)
  · rfl

/-- An object that does not end at once is read from its first name. -/
theorem valueAt_obj (h : ∀ t, skip s ≠ '\x7d' :: t) (d n : Nat) :
    valueAt (d + 1) (n + 1) ('\x7b' :: s) =
      (membersAt d n (skip s)).map fun (fs, r) => (.obj (merge [] fs), r) := by
  rw [valueAt, if_neg (Nat.succ_ne_zero d), Nat.add_sub_cancel]
  split
  · rename_i hs
    exact absurd hs (h _)
  · rfl

/-- An array with items is read from the first of them. -/
theorem valueAt_render_arr {x : Json} (hexact : IsExact x) (xs : List Json) (d n : Nat) (r : Text) :
    valueAt (d + 1) (n + 1) (render level (arr (x :: xs)) ++ r) =
      (itemsAt d n (render (level + 1) x ++ (trailing (level + 1) (render (level + 1)) xs
        ++ (newline level ++ ']' :: r)))).map fun (vs, r) => (.arr vs, r) := by
  have hopen : ∀ s t, render (level + 1) x ++ s ≠ ']' :: t := by
    intro s t he
    obtain ⟨c, s', hs, hc⟩ := leads_render (level + 1) hexact
    rw [hs] at he
    obtain ⟨rfl, -⟩ := List.cons.inj he
    cases hc with
    | digit hc => cases hc
  have hskip := skip_render hexact (level + 1)
  rw [render_arr, bracketed_cons_append, valueAt_arr, skip_newline, hskip]
  rw [skip_newline, hskip]
  exact hopen _

/-- An object with fields is read from the first of them. -/
theorem valueAt_render_obj (f : Str × Json) (fs : Fields) (d n : Nat) (r : Text) :
    valueAt (d + 1) (n + 1) (render level (obj (f :: fs)) ++ r) =
      (membersAt d n (renderField (level + 1) f
        ++ (trailing (level + 1) (renderField (level + 1)) fs
        ++ (newline level ++ '\x7d' :: r)))).map fun (fs, r) => (.obj (merge [] fs), r) := by
  have hskip : ∀ s, skip (renderField (level + 1) f ++ s) = renderField (level + 1) f ++ s := by
    intro s
    rw [renderField_append]
    exact skip_cons (by decide) _
  have hopen : ∀ s t, renderField (level + 1) f ++ s ≠ '\x7d' :: t := by
    intro s t he
    rw [renderField_append] at he
    exact absurd (List.cons.inj he).1 (by decide)
  rw [render_obj, bracketed_cons_append, valueAt_obj, skip_newline, hskip]
  rw [skip_newline, hskip]
  exact hopen _

/-- An array is read back if its items are, one level deeper. -/
theorem readBack_arr (hexact : ∀ v ∈ vs, IsExact v) (hread : ∀ v ∈ vs, ReadBack d (level + 1) v) :
    ReadBack (d + 1) level (arr vs) := by
  intro n r hn _
  cases vs with
  | nil => rfl
  | cons x xs =>
    obtain ⟨m, rfl, hm⟩ := bound_inside (render_arr level (x :: xs) ▸ hn)
    rw [valueAt_render_arr (hexact x List.mem_cons_self),
      itemsAt_trailing hexact hread hm level]
    rfl

/-- An object is read back if its names and values are and no name comes twice. -/
theorem readBack_obj (hjoined : ∀ f ∈ fs, f.1.IsJoined) (hexact : ∀ f ∈ fs, IsExact f.2)
    (hread : ∀ f ∈ fs, ReadBack d (level + 1) f.2) (hnames : (fs.map Prod.fst).Nodup) :
    ReadBack (d + 1) level (obj fs) := by
  intro n r hn _
  cases fs with
  | nil => rfl
  | cons f fs =>
    obtain ⟨m, rfl, hm⟩ := bound_inside (render_obj level (f :: fs) ▸ hn)
    have hmerge : merge [] (f :: fs) = f :: fs := merge_eq_of_names_eq rfl hnames
    rw [valueAt_render_obj, membersAt_trailing hjoined hexact hread hm level, map_ok]
    dsimp only
    rw [hmerge]

/-! ## Values -/

/-- An array is nested no deeper than a depth if none of its items is. -/
theorem depthOfItems_le_iff : depthOfItems vs ≤ d ↔ ∀ v ∈ vs, depth v ≤ d := by
  induction vs with
  | nil => exact iff_of_true (Nat.zero_le d) fun _ h => absurd h List.not_mem_nil
  | cons v vs ih => rw [depthOfItems, Nat.max_le, ih, List.forall_mem_cons]

theorem depthOfFields_le_iff : depthOfFields fs ≤ d ↔ ∀ f ∈ fs, depth f.2 ≤ d := by
  induction fs with
  | nil => exact iff_of_true (Nat.zero_le d) fun _ h => absurd h List.not_mem_nil
  | cons f fs ih => rw [depthOfFields, Nat.max_le, ih, List.forall_mem_cons]

/-- **A value is read back from its text** within its depth. -/
theorem readBack_of_isReadable (hexact : IsExact v) (hread : IsReadable v) (hd : v.depth ≤ d)
    (level : Nat) : ReadBack d level v := by
  -- On what makes the value exact: items and fields come one level further in, within less depth.
  induction hexact generalizing d level with
  | null => exact readBack_null d level
  | bool b => exact readBack_bool b d level
  | int i =>
    cases hread with
    | int h => exact readBack_int h d level
  | str t =>
    cases hread with
    | str ht => exact readBack_str ht d level
  | @arr vs hexact ih =>
    cases hread with
    | arr hread =>
      obtain ⟨d, rfl⟩ := Nat.exists_eq_add_one_of_ne_zero (Nat.ne_zero_of_lt hd)
      have hdepth := depthOfItems_le_iff.1 (Nat.le_of_succ_le_succ hd)
      exact readBack_arr hexact fun v hv => ih v hv (hread v hv) (hdepth v hv) _
  | @obj fs hexact ih =>
    cases hread with
    | obj hnames hjoined hread =>
      obtain ⟨d, rfl⟩ := Nat.exists_eq_add_one_of_ne_zero (Nat.ne_zero_of_lt hd)
      have hdepth := depthOfFields_le_iff.1 (Nat.le_of_succ_le_succ hd)
      exact readBack_obj hjoined hexact (fun f hf => ih f hf (hread f hf) (hdepth f hf) _) hnames

/-! ## Texts -/

/-- Reading the text of a value is reading a value at its start. -/
theorem parse_print_eq (hexact : IsExact v) (d : Nat) :
    parse d (print v) = (valueAt d (2 * (print v).length + 2) (render 0 v ++ []) >>= fun p =>
      match skip p.2 with
      | [] => .ok p.1
      | r => .error ⟨.moreText, r.length⟩) := by
  have hskip := skip_render hexact 0 []
  rw [List.append_nil, ← print] at hskip
  have hmark : (print v).head? ≠ some '\ufeff' := by
    obtain ⟨c, s, hs, hc⟩ := leads_render 0 hexact
    rw [print, hs, List.head?_cons]
    rintro ⟨⟩
    cases hc with
    | digit hc => cases hc
  rw [parse, if_neg hmark, hskip, List.append_nil, ← print]
  rfl

/-- **A value is read back from what is printed of it.** -/
theorem parse_print (hexact : IsExact v) (hread : IsReadable v) (hd : v.depth ≤ d) :
    parse d (print v) = .ok v := by
  have hvalue := readBack_of_isReadable hexact hread hd 0 (2 * (print v).length + 1) []
    (by rw [← print]; omega) closes_nil
  rw [parse_print_eq hexact, hvalue]
  rfl

end AsmLens.Json
