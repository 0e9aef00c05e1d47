import AsmLens.Assembly.FileTable
import AsmLens.Proofs.Outcome

/-!
# Declaring files

A table that grew by declarations keeps every file under its own index. Declaring files one after
another keeps what was there, adds the declared ones and nothing else (`Declared`), and it only
fails if two paths claim one index.
-/

namespace AsmLens

namespace FileTable

/-- Every file stands under its own index. -/
def Keyed (t : FileTable) : Prop :=
  ∀ k f, t.get? k = some f → f.index = k

/-- `t'` is `t` with the declarations `fs`. -/
structure Declared (t : FileTable) (fs : List FileEntry) (t' : FileTable) : Prop where
  keyed : Keyed t'
  kept : ∀ k f, t.get? k = some f → t'.get? k = some f
  added : ∀ f ∈ fs, t'.get? f.index = some f
  only : ∀ k f, t'.get? k = some f → t.get? k = some f ∨ f ∈ fs

variable {t t' t'' : FileTable} {f : FileEntry} {fs gs : List FileEntry}

theorem keyed_nil : Keyed [] := by
  intro k f h
  simp [get?] at h

/-- An entry at the end counts if none with its index stands before it. -/
theorem get?_append_singleton_eq_some {k : Int} {g : FileEntry} :
    get? (t ++ [(f.index, f)]) k = some g ↔
      t.get? k = some g ∨ t.get? k = none ∧ k = f.index ∧ g = f := by
  rw [get?, List.lookup_append, get?, Option.or_eq_some_iff]
  by_cases h : k = f.index
  · simp [h, eq_comm (a := f)]
  · simp [List.lookup_cons, h, beq_eq_false_iff_ne.2 h]

/-- A declaration gives a file to an index that has none exactly if it is for this index. -/
theorem isSome_get?_of_declare {k : Int} (hn : t.get? k = none) (h : t.declare f = .ok t') :
    (t'.get? k).isSome = (f.index == k) := by
  unfold declare at h
  cases hk : t.get? f.index with
  | none =>
    simp only [hk] at h
    cases h
    by_cases hi : f.index = k
    · rw [get?_append_singleton_eq_some.2 (.inr ⟨hn, hi.symm, rfl⟩)]
      simp [hi]
    · have hnone : get? (t ++ [(f.index, f)]) k = none := by
        apply Option.eq_none_iff_forall_ne_some.2
        intro g hg
        rcases get?_append_singleton_eq_some.1 hg with hg | ⟨-, he, -⟩
        · exact absurd (hn.symm.trans hg) (by simp)
        · exact hi he.symm
      simp [hnone, hi]
  | some known =>
    have hi : f.index ≠ k := by
      rintro rfl
      exact absurd (hn.symm.trans hk) (by simp)
    simp only [hk] at h
    split at h
    · cases h
      simp [hn, hi]
    · cases h

/-- A file that the table has under its index stays known; a new one is added. -/
theorem declare_eq_ok_iff (ht : Keyed t) :
    t.declare f = .ok t' ↔
      t.get? f.index = none ∧ t' = t ++ [(f.index, f)] ∨ t.get? f.index = some f ∧ t' = t := by
  cases h : t.get? f.index with
  | none => simp [declare, h, eq_comm]
  | some g =>
    obtain ⟨gp, gi⟩ := g
    have hg : gi = f.index := ht _ _ h
    subst hg
    by_cases hp : gp = f.path
    · subst hp
      simp [declare, h, eq_comm]
    · have hne : (⟨gp, f.index⟩ : FileEntry) ≠ f := fun e => hp (congrArg FileEntry.path e)
      simp [declare, h, hp, hne]

theorem declared_nil (ht : Keyed t) : Declared t [] t :=
  ⟨ht, fun _ _ h => h, fun _ h => absurd h List.not_mem_nil, fun _ _ h => .inl h⟩

theorem Declared.trans (h : Declared t fs t') (h' : Declared t' gs t'') :
    Declared t (fs ++ gs) t'' where
  keyed := h'.keyed
  kept k f hf := h'.kept k f (h.kept k f hf)
  added f hf := by
    rcases List.mem_append.1 hf with hf | hf
    · exact h'.kept _ _ (h.added f hf)
    · exact h'.added f hf
  only k f hf := by
    rcases h'.only k f hf with hf | hf
    · exact (h.only k f hf).imp_right fun hf => List.mem_append_left _ hf
    · exact .inr (List.mem_append_right _ hf)

theorem declared_of_declare (ht : Keyed t) (h : t.declare f = .ok t') : Declared t [f] t' := by
  rcases (declare_eq_ok_iff ht).1 h with ⟨hn, rfl⟩ | ⟨hs, rfl⟩
  · refine ⟨fun k g hg => ?_, fun k g hg => ?_, fun g hg => ?_, fun k g hg => ?_⟩
    · rcases get?_append_singleton_eq_some.1 hg with hg | ⟨-, rfl, rfl⟩
      · exact ht k g hg
      · rfl
    · exact get?_append_singleton_eq_some.2 (.inl hg)
    · rw [List.mem_singleton.1 hg]
      exact get?_append_singleton_eq_some.2 (.inr ⟨hn, rfl, rfl⟩)
    · rcases get?_append_singleton_eq_some.1 hg with hg | ⟨-, -, rfl⟩
      · exact .inl hg
      · exact .inr List.mem_cons_self
  · refine ⟨ht, fun _ _ hg => hg, fun g hg => ?_, fun _ _ hg => .inl hg⟩
    rw [List.mem_singleton.1 hg, hs]

theorem declareAll_cons (t : FileTable) (f : FileEntry) (fs : List FileEntry) :
    t.declareAll (f :: fs) = t.declare f >>= fun t => t.declareAll fs := by
  rw [declareAll, List.foldlM_cons]
  rfl

theorem declareAll_append (t : FileTable) (fs gs : List FileEntry) :
    t.declareAll (fs ++ gs) = t.declareAll fs >>= fun t => t.declareAll gs := by
  rw [declareAll, List.foldlM_append]
  rfl

/-- A table says which files were declared in it. -/
theorem declared_of_declareAll (ht : Keyed t) (h : t.declareAll fs = .ok t') :
    Declared t fs t' := by
  induction fs generalizing t with
  | nil => cases h; exact declared_nil ht
  | cons f fs ih =>
    rw [declareAll_cons] at h
    obtain ⟨t₁, h₁, h₂⟩ := bind_eq_ok.1 h
    have hd := declared_of_declare ht h₁
    exact hd.trans (ih hd.keyed h₂)

theorem mem_indices_iff {t : FileTable} {k : Int} :
    k ∈ t.indices ↔ ∃ f, t.get? k = some f := by
  rw [indices, List.mem_map]
  constructor
  · rintro ⟨p, hp, rfl⟩
    cases h : t.get? p.1 with
    | some f => exact ⟨f, rfl⟩
    | none => exact absurd (List.lookup_eq_none_iff.1 h p hp) (by simp)
  · rintro ⟨f, hf⟩
    obtain ⟨l₁, l₂, rfl, -⟩ := List.lookup_eq_some_iff.1 hf
    exact ⟨(k, f), by simp, rfl⟩

end FileTable

end AsmLens
