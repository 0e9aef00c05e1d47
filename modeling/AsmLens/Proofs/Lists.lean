/-!
# Lists

What the lists of the core library leave to say: erasing repeats leaves none, a lookup by a key that
comes once finds what stands with it in whatever order, a strictly rising list is told by its
members, a run ends at the first thing that does not belong to it, and two functions that tell the
same things apart tell the same lists apart.
-/

namespace AsmLens

section

variable {α β : Type} [BEq α] [LawfulBEq α]

theorem nodup_eraseDups (l : List α) : l.eraseDups.Nodup := by
  induction h : l.length using Nat.strongRecOn generalizing l with
  | _ n ih =>
    cases l with
    | nil => exact List.nodup_nil
    | cons a l =>
      rw [List.eraseDups_cons, List.nodup_cons]
      have hlt : (l.filter fun b => !b == a).length < n := by
        have := List.length_filter_le (fun b => !b == a) l
        rw [List.length_cons] at h
        omega
      exact ⟨by simp [List.mem_eraseDups], ih _ hlt _ rfl⟩

/-- Among keys that come once, looking up is membership. -/
theorem lookup_eq_some_iff_mem {l : List (α × β)} (h : (l.map Prod.fst).Nodup) {a : α} {b : β} :
    l.lookup a = some b ↔ (a, b) ∈ l := by
  induction l with
  | nil => simp
  | cons p l ih =>
    obtain ⟨a', b'⟩ := p
    rw [List.map_cons, List.nodup_cons] at h
    by_cases ha : a = a'
    · subst ha
      have hl : (a, b) ∉ l := fun hm => h.1 (List.mem_map.2 ⟨_, hm, rfl⟩)
      simp [hl, eq_comm]
    · rw [List.lookup_cons, beq_eq_false_iff_ne.2 ha, List.mem_cons]
      simp [ih h.2, ha]

/-- The order of a list does not matter to a lookup by a key that comes once. -/
theorem lookup_eq_of_perm {l l' : List (α × β)} (h : (l.map Prod.fst).Nodup) (hp : l'.Perm l)
    (a : α) : l'.lookup a = l.lookup a := by
  have h' : (l'.map Prod.fst).Nodup := (hp.map _).nodup_iff.2 h
  refine Option.ext fun b => ?_
  rw [lookup_eq_some_iff_mem h', lookup_eq_some_iff_mem h, hp.mem_iff]

end

/-! ## Rising lists -/

section

variable {α : Type} {le : α → α → Bool} {lt : α → α → Prop}

/-- Sorted without repeats, a list rises strictly. -/
theorem rising_mergeSort_eraseDups [BEq α] [LawfulBEq α]
    (htrans : ∀ a b c, le a b = true → le b c = true → le a c = true)
    (htotal : ∀ a b, (le a b || le b a) = true)
    (hlt : ∀ {a b}, le a b = true → a ≠ b → lt a b) (l : List α) :
    (l.eraseDups.mergeSort le).Pairwise lt := by
  have hle : (l.eraseDups.mergeSort le).Pairwise fun a b => le a b = true :=
    List.pairwise_mergeSort htrans htotal _
  have hne : (l.eraseDups.mergeSort le).Pairwise fun a b => a ≠ b :=
    (List.mergeSort_perm _ _).nodup_iff.2 (nodup_eraseDups l)
  exact (hle.and hne).imp fun h => hlt h.1 h.2

/-- There is but one strictly rising list of given members. -/
theorem eq_of_rising (hasymm : ∀ {a b}, lt a b → ¬ lt b a) {l l' : List α} (h : l.Pairwise lt)
    (h' : l'.Pairwise lt) (hm : ∀ a, a ∈ l ↔ a ∈ l') : l = l' := by
  have hne : ∀ {a b}, lt a b → a ≠ b := by
    rintro a _ hlt rfl
    exact hasymm hlt hlt
  have hperm : l.Perm l' := (List.perm_ext_iff_of_nodup (h.imp hne) (h'.imp hne)).2 hm
  exact hperm.eq_of_pairwise (fun a b _ _ hab hba => absurd hba (hasymm hab)) h h'

end

/-! ## Runs -/

section

variable {α : Type} {p : α → Bool} {a b : List α}

/-- What is left behind a run begins with nothing that belongs to it. -/
theorem eq_false_of_head?_dropWhile {l : List α} {x : α} (h : (l.dropWhile p).head? = some x) :
    p x = false := by
  have := List.head?_dropWhile_not p l
  rw [h] at this
  simpa using this

theorem takeWhile_eq_nil_of_head (hb : ∀ x ∈ b.head?, p x = false) : b.takeWhile p = [] := by
  cases b with
  | nil => rfl
  | cons x b => exact List.takeWhile_cons_of_neg (by simp [hb x rfl])

theorem dropWhile_eq_self_of_head (hb : ∀ x ∈ b.head?, p x = false) : b.dropWhile p = b := by
  cases b with
  | nil => rfl
  | cons x b => exact List.dropWhile_cons_of_neg (by simp [hb x rfl])

/-- All of a run is taken, and nothing of what follows it. -/
theorem takeWhile_run (ha : ∀ x ∈ a, p x = true) (hb : ∀ x ∈ b.head?, p x = false) :
    (a ++ b).takeWhile p = a := by
  rw [List.takeWhile_append_of_pos ha, takeWhile_eq_nil_of_head hb, List.append_nil]

/-- Behind a run, what follows it is left. -/
theorem dropWhile_run (ha : ∀ x ∈ a, p x = true) (hb : ∀ x ∈ b.head?, p x = false) :
    (a ++ b).dropWhile p = b := by
  rw [List.dropWhile_append_of_pos ha, dropWhile_eq_self_of_head hb]

end

/-- Two maps that tell the same items apart tell the same lists apart. -/
theorem map_eq_map_iff_of {α β γ : Type} {f : α → β} {g : α → γ}
    (h : ∀ a b, f a = f b ↔ g a = g b) {l l' : List α} :
    l.map f = l'.map f ↔ l.map g = l'.map g := by
  induction l generalizing l' with
  | nil => simp
  | cons a l ih =>
    cases l' with
    | nil => simp
    | cons b l' => simp [h a b, ih]

end AsmLens
