import AsmLens.Failure

/-!
# Steps that may fail

A chain of steps gives a result exactly if every step does, and fails as its first failing step
does. Steps over a list give the list of their results (`mapM_eq_ok_iff`).
-/

namespace AsmLens

section

variable {ε α β : Type}

@[simp] theorem ok_bind (a : α) (f : α → Except ε β) : (Except.ok a >>= f) = f a := rfl

@[simp] theorem error_bind (e : ε) (f : α → Except ε β) :
    (Except.error e >>= f) = Except.error e := rfl

@[simp] theorem pure_eq_ok (a : α) : (pure a : Except ε α) = .ok a := rfl

@[simp] theorem throw_eq_error (e : ε) : (throw e : Except ε α) = .error e := rfl

@[simp] theorem map_ok (g : α → β) (a : α) : Except.map g (Except.ok a : Except ε α) = .ok (g a) :=
  rfl

@[simp] theorem map_error (g : α → β) (e : ε) :
    Except.map g (Except.error e : Except ε α) = .error e := rfl

@[simp] theorem mapError_ok {ε' : Type} (h : ε → ε') (a : α) :
    Except.mapError h (Except.ok a : Except ε α) = .ok a := rfl

@[simp] theorem mapError_error {ε' : Type} (h : ε → ε') (e : ε) :
    Except.mapError h (Except.error e : Except ε α) = .error (h e) := rfl

/-- Two steps succeed if and only if both do. -/
theorem bind_eq_ok {x : Except ε α} {f : α → Except ε β} {b : β} :
    x >>= f = .ok b ↔ ∃ a, x = .ok a ∧ f a = .ok b := by
  cases x with
  | error e => simp
  | ok a => simp

/-- They fail as the first does, or as the second. -/
theorem bind_eq_error {x : Except ε α} {f : α → Except ε β} {e : ε} :
    x >>= f = .error e ↔ x = .error e ∨ ∃ a, x = .ok a ∧ f a = .error e := by
  cases x with
  | error e => simp
  | ok a => simp

theorem map_eq_ok {g : α → β} {x : Except ε α} {b : β} :
    x.map g = .ok b ↔ ∃ a, x = .ok a ∧ g a = b := by
  cases x with
  | error e => simp
  | ok a => simp

theorem map_eq_error {g : α → β} {x : Except ε α} {e : ε} :
    x.map g = .error e ↔ x = .error e := by
  cases x with
  | error e => simp
  | ok a => simp

theorem toOption_eq_some_iff {x : Except ε α} {a : α} : x.toOption = some a ↔ x = .ok a := by
  cases x with
  | error e => simp [Except.toOption]
  | ok b => simp [Except.toOption]

theorem mapM_eq_error {f : α → Except ε β} {l : List α} {e : ε} (h : l.mapM f = .error e) :
    ∃ a ∈ l, f a = .error e := by
  induction l with
  | nil => cases h
  | cons a l ih =>
    rw [List.mapM_cons] at h
    rcases bind_eq_error.1 h with h | ⟨b, -, h⟩
    · exact ⟨a, List.mem_cons_self, h⟩
    · rcases bind_eq_error.1 h with h | ⟨bs, -, h⟩
      · obtain ⟨a', ha', h⟩ := ih h
        exact ⟨a', List.mem_cons_of_mem _ ha', h⟩
      · cases h

/-- Steps over a list give a list if each gives its member. -/
theorem mapM_eq_ok_iff {f : α → Except ε β} {l : List α} {bs : List β} :
    l.mapM f = .ok bs ↔ l.map f = bs.map .ok := by
  induction l generalizing bs with
  | nil =>
    rw [List.mapM_nil, pure_eq_ok, Except.ok.injEq, List.map_nil, eq_comm, List.nil_eq,
      List.map_eq_nil_iff]
  | cons a l ih =>
    rw [List.mapM_cons, bind_eq_ok, List.map_cons]
    constructor
    · rintro ⟨b, hb, h⟩
      obtain ⟨bs', hbs, h⟩ := bind_eq_ok.1 h
      cases h
      rw [hb, ih.1 hbs, List.map_cons]
    · intro h
      cases bs with
      | nil => cases h
      | cons b bs =>
        obtain ⟨hb, hbs⟩ := List.cons.inj h
        exact ⟨b, hb, bind_eq_ok.2 ⟨bs, ih.2 hbs, rfl⟩⟩

/-- Values that may be missing give a list if none is. -/
theorem mapM_id_eq_some_iff {l : List (Option α)} {as : List α} :
    l.mapM id = some as ↔ l = as.map some := by
  induction l generalizing as with
  | nil => cases as <;> simp
  | cons o l ih =>
    rw [List.mapM_cons]
    cases o with
    | none => cases as <;> simp
    | some a =>
      cases as with
      | nil => cases l.mapM id <;> simp
      | cons b as => cases h : l.mapM id <;> simp [h, ← ih, eq_comm]

theorem mem_iff_of_mapM {f : α → Except ε β} {l : List α} {bs : List β} (h : l.mapM f = .ok bs)
    {b : β} : b ∈ bs ↔ ∃ a ∈ l, f a = .ok b := by
  rw [← List.mem_map, mapM_eq_ok_iff.1 h, List.mem_map]
  simp

theorem exists_mapM_eq_ok_iff {f : α → Except ε β} {l : List α} :
    (∃ bs, l.mapM f = .ok bs) ↔ ∀ a ∈ l, ∃ b, f a = .ok b := by
  constructor
  · rintro ⟨bs, h⟩ a ha
    have hmem := mapM_eq_ok_iff.1 h ▸ List.mem_map_of_mem ha
    obtain ⟨b, -, hb⟩ := List.mem_map.1 hmem
    exact ⟨b, hb.symm⟩
  · intro h
    cases hm : l.mapM f with
    | ok bs => exact ⟨bs, rfl⟩
    | error e =>
      obtain ⟨a, ha, he⟩ := mapM_eq_error hm
      obtain ⟨b, hb⟩ := h a ha
      cases he.symm.trans hb

/-- What each step says about its result, in terms of its member, holds along the list. -/
theorem map_of_mapM {γ : Type} {f : α → Except ε β} {g : β → γ} {key : α → γ} {l : List α}
    {bs : List β} (hf : ∀ a b, f a = .ok b → g b = key a) (h : l.mapM f = .ok bs) :
    bs.map g = l.map key := by
  induction l generalizing bs with
  | nil =>
    cases h
    rfl
  | cons a l ih =>
    rw [List.mapM_cons, bind_eq_ok] at h
    obtain ⟨b, hb, h⟩ := h
    obtain ⟨bs', hbs, h⟩ := bind_eq_ok.1 h
    cases h
    rw [List.map_cons, List.map_cons, hf a b hb, ih hbs]

end

end AsmLens
