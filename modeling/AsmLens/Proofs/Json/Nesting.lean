import AsmLens.Proofs.Json.RoundTrip

/-!
# Values nested too deeply

The text of a value that is nested deeper than the reader goes is refused for that
(`parse_print_tooDeep`), so with `parse_print` the depth alone decides whether a value is read back.
Items and fields are read one after the other up to the first that is refused; at the bracket that
is one too many nothing behind it counts (`refused_zero`).
-/

namespace AsmLens.Json

open Text

/-- Within a depth, the text of the value at a level is refused, whatever closes it. -/
def Refused (depth level : Nat) (v : Json) : Prop :=
  ∀ n r, (render level v).length ≤ n → Closes r →
    ∃ l, valueAt depth (n + 1) (render level v ++ r) = .error ⟨.tooDeep, l⟩

variable {v : Json} {vs : List Json} {fs : Fields} {d level n : Nat} {k : Str}
  {r s t t' u u' : Text} {e : Stop}

/-! ## Items and fields one by one -/

/-- An array fails where its first item does. -/
theorem itemsAt_stop (hv : valueAt d n s = .error e) : itemsAt d (n + 1) s = .error e := by
  rw [itemsAt, hv]
  rfl

/-- Else it may fail behind the comma. -/
theorem itemsAt_next_stop (hv : valueAt d n s = .ok (v, t)) (ht : skip t = ',' :: t')
    (hvs : itemsAt d n (skip t') = .error e) : itemsAt d (n + 1) s = .error e := by
  rw [itemsAt, hv, ok_bind]
  dsimp only
  rw [ht]
  exact bind_eq_error.2 (.inl hvs)

/-- An object fails where the value of its first member does. -/
theorem membersAt_stop (hk : stringBody (s.length + 1) s = .ok (k, t)) (ht : skip t = ':' :: t')
    (hv : valueAt d n (skip t') = .error e) : membersAt d (n + 1) ('"' :: s) = .error e := by
  rw [membersAt]
  refine bind_eq_error.2 (.inr ⟨_, hk, ?_⟩)
  dsimp only
  rw [ht]
  exact bind_eq_error.2 (.inl hv)

theorem membersAt_next_stop (hk : stringBody (s.length + 1) s = .ok (k, t))
    (ht : skip t = ':' :: t') (hv : valueAt d n (skip t') = .ok (v, u)) (hu : skip u = ',' :: u')
    (hfs : membersAt d n (skip u') = .error e) : membersAt d (n + 1) ('"' :: s) = .error e := by
  rw [membersAt]
  refine bind_eq_error.2 (.inr ⟨_, hk, ?_⟩)
  dsimp only
  rw [ht]
  refine bind_eq_error.2 (.inr ⟨_, hv, ?_⟩)
  dsimp only
  rw [hu]
  exact bind_eq_error.2 (.inl hfs)

theorem closes_trailing {α : Type} (level : Nat) (item : α → Text) (xs : List α) (l : Nat)
    (s : Text) : Closes (trailing level item xs ++ (newline l ++ s)) := by
  cases xs with
  | nil => exact closes_newline l _
  | cons x xs => exact closes_cons (.inl rfl) _

/-- The items of an array are read up to the first that is refused. -/
theorem itemsAt_refused {x : Json} {xs : List Json} (hexact : ∀ v ∈ x :: xs, IsExact v)
    (hread : ∀ v ∈ x :: xs, ReadBack d level v ∨ Refused d level v)
    (hsome : ∃ v ∈ x :: xs, ¬ ReadBack d level v)
    (hn : (render level x ++ trailing level (render level) xs).length ≤ n) (l : Nat) :
    ∃ left, itemsAt d (n + 2)
        (render level x ++ (trailing level (render level) xs ++ (newline l ++ ']' :: r))) =
      .error ⟨.tooDeep, left⟩ := by
  induction xs generalizing x n with
  | nil =>
    obtain ⟨v, hv, hno⟩ := hsome
    rw [List.mem_singleton.1 hv] at hno
    rw [List.length_append] at hn
    obtain ⟨left, hvalue⟩ := (hread x List.mem_cons_self).resolve_left hno n _ (by omega)
      (closes_trailing level (render level) [] l _)
    exact ⟨left, itemsAt_stop hvalue⟩
  | cons y ys ih =>
    have hcloses := closes_trailing level (render level) (y :: ys) l (']' :: r)
    simp only [trailing_cons, List.length_append, List.length_cons] at hn
    rcases hread x List.mem_cons_self with hx | hx
    · have hlater : ∃ v ∈ y :: ys, ¬ ReadBack d level v :=
        ((List.exists_mem_cons_iff ..).1 hsome).resolve_left fun hno => hno hx
      -- The comma leaves enough of the bound for the rest.
      obtain ⟨m, rfl⟩ : ∃ m, n = m + 1 := ⟨n - 1, by omega⟩
      obtain ⟨left, hrest⟩ := ih (List.forall_mem_cons.1 hexact).2 (List.forall_mem_cons.1 hread).2
        hlater (n := m) (by rw [List.length_append]; omega)
      have hvalue := hx (m + 1) _ (by omega) hcloses
      rw [trailing_cons, List.cons_append, List.append_assoc, List.append_assoc] at hvalue ⊢
      refine ⟨left, itemsAt_next_stop hvalue (skip_cons (by decide) _) ?_⟩
      rw [skip_newline, skip_render (hexact y (by simp))]
      exact hrest
    · obtain ⟨left, hvalue⟩ := hx n _ (by omega) hcloses
      exact ⟨left, itemsAt_stop hvalue⟩

/-- The fields of an object are read up to the first whose value is refused. -/
theorem membersAt_refused {f : Str × Json} (hnames : ∀ g ∈ f :: fs, g.1.IsJoined)
    (hexact : ∀ g ∈ f :: fs, IsExact g.2)
    (hread : ∀ g ∈ f :: fs, ReadBack d level g.2 ∨ Refused d level g.2)
    (hsome : ∃ g ∈ f :: fs, ¬ ReadBack d level g.2)
    (hn : (renderField level f ++ trailing level (renderField level) fs).length ≤ n) (l : Nat) :
    ∃ left, membersAt d (n + 2) (renderField level f ++
        (trailing level (renderField level) fs ++ (newline l ++ '\x7d' :: r))) =
      .error ⟨.tooDeep, left⟩ := by
  induction fs generalizing f n with
  | nil =>
    obtain ⟨g, hg, hno⟩ := hsome
    rw [List.mem_singleton.1 hg] at hno
    simp only [renderField, List.length_append, List.length_cons] at hn
    obtain ⟨left, hvalue⟩ := (hread f List.mem_cons_self).resolve_left hno n _ (by omega)
      (closes_trailing level (renderField level) [] l _)
    have hname := hnames f List.mem_cons_self
    rw [renderField_append]
    refine ⟨left, membersAt_stop (stringBody_escaped hname) (skip_cons (by decide) _) ?_⟩
    rw [skip_space_render (hexact f List.mem_cons_self)]
    exact hvalue
  | cons g fs ih =>
    have hname := hnames f List.mem_cons_self
    have hcloses := closes_trailing level (renderField level) (g :: fs) l ('\x7d' :: r)
    simp only [trailing_cons, List.length_append, List.length_cons] at hn
    have hlen : (render level f.2).length + 1 ≤ n := by
      simp only [renderField, List.length_append, List.length_cons] at hn
      omega
    rcases hread f List.mem_cons_self with hx | hx
    · have hlater : ∃ h ∈ g :: fs, ¬ ReadBack d level h.2 :=
        ((List.exists_mem_cons_iff ..).1 hsome).resolve_left fun hno => hno hx
      obtain ⟨m, rfl⟩ : ∃ m, n = m + 1 := ⟨n - 1, by omega⟩
      obtain ⟨left, hrest⟩ := ih (List.forall_mem_cons.1 hnames).2 (List.forall_mem_cons.1 hexact).2
        (List.forall_mem_cons.1 hread).2 hlater (n := m) (by rw [List.length_append]; omega)
      have hvalue := hx (m + 1) _ (by omega) hcloses
      rw [trailing_cons, List.cons_append, List.append_assoc, List.append_assoc] at hvalue ⊢
      rw [renderField_append]
      refine ⟨left, membersAt_next_stop (stringBody_escaped hname) (skip_cons (by decide) _)
        (by rw [skip_space_render (hexact f List.mem_cons_self), hvalue]) (skip_cons (by decide) _)
        ?_⟩
      rw [skip_newline, renderField_append, skip_cons (by decide), ← renderField_append]
      exact hrest
    · obtain ⟨left, hvalue⟩ := hx n _ (by omega) hcloses
      rw [renderField_append]
      refine ⟨left, membersAt_stop (stringBody_escaped hname) (skip_cons (by decide) _) ?_⟩
      rw [skip_space_render (hexact f List.mem_cons_self)]
      exact hvalue

/-! ## Values -/

/-- An array or an object without depth left is refused at its bracket. -/
theorem refused_zero (hexact : IsExact v) (hd : 0 < v.depth) (level : Nat) : Refused 0 level v := by
  intro n r _ _
  cases hexact with
  | @arr vs =>
    obtain ⟨s, hs⟩ := bracketed_eq_cons '[' ']' level (render (level + 1)) vs
    exact ⟨_, by rw [render_arr, hs]; rfl⟩
  | @obj fs =>
    obtain ⟨s, hs⟩ := bracketed_eq_cons '\x7b' '\x7d' level (renderField (level + 1)) fs
    exact ⟨_, by rw [render_obj, hs]; rfl⟩
  | _ => cases hd

/-- No text is read back and refused. -/
theorem Refused.not_readBack (h : Refused d level v) : ¬ ReadBack d level v := by
  intro hread
  obtain ⟨l, hvalue⟩ := h _ [] le_rfl closes_nil
  cases (hread _ [] le_rfl closes_nil).symm.trans hvalue

/-- **A value that is nested too deeply is refused** wherever its text stands. -/
theorem refused_of_lt_depth (hexact : IsExact v) (hread : IsReadable v) (hd : d < v.depth)
    (level : Nat) : Refused d level v := by
  induction hexact generalizing d level with
  | @arr vs hexact ih =>
    cases d with
    | zero => exact refused_zero (.arr hexact) hd level
    | succ d =>
      cases hread with
      | arr hread =>
        have hsettled : ∀ v ∈ vs, ReadBack d (level + 1) v ∨ Refused d (level + 1) v := by
          intro v hv
          rcases Nat.lt_or_ge d v.depth with h | h
          · exact .inr (ih v hv (hread v hv) h _)
          · exact .inl (readBack_of_isReadable (hexact v hv) (hread v hv) h _)
        obtain ⟨v, hv, hdeep⟩ : ∃ v ∈ vs, d < v.depth := by
          simpa using mt depthOfItems_le_iff.2 (Nat.not_le_of_lt (Nat.lt_of_succ_lt_succ hd))
        have hno := (ih v hv (hread v hv) hdeep (level + 1)).not_readBack
        intro n r hn _
        cases vs with
        | nil => cases hv
        | cons x xs =>
          obtain ⟨m, rfl, hm⟩ := bound_inside (render_arr level (x :: xs) ▸ hn)
          obtain ⟨left, hitems⟩ := itemsAt_refused (r := r) hexact hsettled ⟨v, hv, hno⟩ hm level
          exact ⟨left, by rw [valueAt_render_arr (hexact x List.mem_cons_self), hitems]; rfl⟩
  | @obj fs hexact ih =>
    cases d with
    | zero => exact refused_zero (.obj hexact) hd level
    | succ d =>
      cases hread with
      | obj hnames hjoined hread =>
        have hsettled : ∀ f ∈ fs, ReadBack d (level + 1) f.2 ∨ Refused d (level + 1) f.2 := by
          intro f hf
          rcases Nat.lt_or_ge d f.2.depth with h | h
          · exact .inr (ih f hf (hread f hf) h _)
          · exact .inl (readBack_of_isReadable (hexact f hf) (hread f hf) h _)
        obtain ⟨f, hf, hdeep⟩ : ∃ f ∈ fs, d < f.2.depth := by
          simpa using mt depthOfFields_le_iff.2 (Nat.not_le_of_lt (Nat.lt_of_succ_lt_succ hd))
        have hno := (ih f hf (hread f hf) hdeep (level + 1)).not_readBack
        intro n r hn _
        cases fs with
        | nil => cases hf
        | cons g fs =>
          obtain ⟨m, rfl, hm⟩ := bound_inside (render_obj level (g :: fs) ▸ hn)
          obtain ⟨left, hmembers⟩ :=
            membersAt_refused (r := r) hjoined hexact hsettled ⟨f, hf, hno⟩ hm level
          exact ⟨left, by rw [valueAt_render_obj, hmembers]; rfl⟩
  | _ => cases hd

/-- **What is printed of a value that is nested too deeply is refused.** -/
theorem parse_print_tooDeep (hexact : IsExact v) (hread : IsReadable v) (hd : d < v.depth) :
    ∃ l, parse d (print v) = .error ⟨.tooDeep, l⟩ := by
  obtain ⟨l, hvalue⟩ := refused_of_lt_depth hexact hread hd 0 (2 * (print v).length + 1) []
    (by rw [← print]; omega) closes_nil
  rw [parse_print_eq hexact, hvalue]
  exact ⟨l, rfl⟩

end AsmLens.Json
