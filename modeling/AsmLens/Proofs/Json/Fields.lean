import AsmLens.Json.Value
import Mathlib.Data.List.Nodup

/-!
# Fields of objects

Setting a field changes what its name finds and nothing else (`get?_set`), and the names there are
stay in their order (`prefix_names_merge`). So fields set over others are found before them
(`get?_merge`), and fields that begin with the names of others come out as they are when they are
set over those (`merge_eq_of_names_eq`).
-/

namespace AsmLens.Json

variable {fs new : Fields} {name : Str} {value : Json}

/-! ## One field -/

theorem get?_cons (k : Str) (v : Json) (fs : Fields) (n : Str) :
    get? ((k, v) :: fs) n = if n = k then some v else get? fs n := by
  rw [get?, List.lookup_cons]
  by_cases h : n = k
  · rw [beq_iff_eq.2 h, if_pos h]
  · rw [beq_eq_false_iff_ne.2 h, if_neg h]
    rfl

/-- A name is missing if it is none of the names. -/
theorem get?_eq_none_iff {n : Str} : get? fs n = none ↔ n ∉ fs.map Prod.fst := by
  induction fs with
  | nil => simp [get?]
  | cons f fs ih =>
    rw [get?_cons, List.map_cons, List.mem_cons, not_or, ← ih]
    by_cases h : n = f.1
    · simp [h]
    · simp [h]

/-- Setting a name changes what it stands for, and no other. -/
theorem get?_set (name : Str) (value : Json) (fs : Fields) (n : Str) :
    get? (set name value fs) n = if n = name then some value else get? fs n := by
  induction fs with
  | nil => exact get?_cons name value [] n
  | cons f fs ih =>
    obtain ⟨k, v⟩ := f
    rw [set]
    split
    · rename_i hk
      cases hk
      rw [get?_cons, get?_cons]
      split <;> rfl
    · rename_i hk
      rw [get?_cons, get?_cons, ih]
      by_cases hn : n = k
      · rw [if_pos hn, if_neg (hn ▸ hk), if_pos hn]
      · rw [if_neg hn, if_neg hn]

/-- A new name comes last. -/
theorem names_set (name : Str) (value : Json) (fs : Fields) :
    (set name value fs).map Prod.fst =
      fs.map Prod.fst ++ if name ∈ fs.map Prod.fst then [] else [name] := by
  induction fs with
  | nil => rfl
  | cons f fs ih =>
    rw [set]
    split
    · rename_i hf
      simp [hf]
    · rename_i hf
      rw [List.map_cons, ih]
      simp only [List.map_cons, List.mem_cons, Ne.symm hf, false_or, List.cons_append]

theorem nodup_names_set (h : (fs.map Prod.fst).Nodup) :
    ((set name value fs).map Prod.fst).Nodup := by
  rw [names_set]
  split
  · rwa [List.append_nil]
  · rename_i hn
    exact List.concat_eq_append ▸ h.concat hn

/-- After setting, a field is the new one or was there before. -/
theorem mem_of_mem_set {f : Str × Json} (h : f ∈ set name value fs) :
    f = (name, value) ∨ f ∈ fs := by
  induction fs with
  | nil => exact .inl (List.mem_singleton.1 h)
  | cons g fs ih =>
    rw [set] at h
    split at h
    · exact (List.mem_cons.1 h).imp_right (List.mem_cons_of_mem _)
    · rcases List.mem_cons.1 h with rfl | h
      · exact .inr List.mem_cons_self
      · exact (ih h).imp_right (List.mem_cons_of_mem _)

/-- What stands before the name stays. -/
theorem set_append {done : Fields} (h : name ∉ done.map Prod.fst) :
    set name value (done ++ fs) = done ++ set name value fs := by
  induction done with
  | nil => rfl
  | cons f done ih =>
    rw [List.map_cons, List.mem_cons, not_or] at h
    rw [List.cons_append, set, if_neg (Ne.symm h.1), ih h.2, List.cons_append]

/-! ## Many fields -/

theorem merge_cons (fs : Fields) (f : Str × Json) (new : Fields) :
    merge fs (f :: new) = merge (set f.1 f.2 fs) new := rfl

/-- Merging keeps the names that were there in front, in their order. -/
theorem prefix_names_merge (fs new : Fields) :
    fs.map Prod.fst <+: (merge fs new).map Prod.fst := by
  induction new generalizing fs with
  | nil => exact List.prefix_rfl
  | cons f new ih =>
    have hstep : fs.map Prod.fst <+: (set f.1 f.2 fs).map Prod.fst := by
      rw [names_set]
      exact List.prefix_append _ _
    exact hstep.trans (ih _)

theorem nodup_names_merge (h : (fs.map Prod.fst).Nodup) (new : Fields) :
    ((merge fs new).map Prod.fst).Nodup := by
  induction new generalizing fs with
  | nil => exact h
  | cons f new ih => exact ih (nodup_names_set h)

/-- A field of the merged object comes from one of the two. -/
theorem mem_of_mem_merge {f : Str × Json} (h : f ∈ merge fs new) : f ∈ fs ∨ f ∈ new := by
  induction new generalizing fs with
  | nil => exact .inl h
  | cons g new ih =>
    rcases ih h with h | h
    · rcases mem_of_mem_set h with rfl | h
      · exact .inr List.mem_cons_self
      · exact .inl h
    · exact .inr (List.mem_cons_of_mem _ h)

/-- **Fields set over others are found before them.** -/
theorem get?_merge (h : (new.map Prod.fst).Nodup) (fs : Fields) (n : Str) :
    get? (merge fs new) n = (get? new n).or (get? fs n) := by
  induction new generalizing fs with
  | nil => rfl
  | cons f new ih =>
    obtain ⟨k, v⟩ := f
    rw [List.map_cons, List.nodup_cons] at h
    rw [merge_cons, ih h.2, get?_set, get?_cons]
    by_cases hn : n = k
    · -- The name comes once, so no later field has it.
      have hnone : get? new n = none := get?_eq_none_iff.2 (hn ▸ h.1)
      rw [if_pos hn, if_pos hn, hnone]
      rfl
    · rw [if_neg hn, if_neg hn]

/-- Fields that begin with the names of others, behind what was met before. -/
theorem merge_append (done : Fields) {others : List Str}
    (hnames : new.map Prod.fst = fs.map Prod.fst ++ others)
    (h : ((done ++ new).map Prod.fst).Nodup) : merge (done ++ fs) new = done ++ new := by
  induction new generalizing fs done others with
  | nil =>
    have hfs : fs = [] := List.map_eq_nil_iff.1 (List.append_eq_nil_iff.1 hnames.symm).1
    rw [hfs]
    rfl
  | cons f new ih =>
    obtain ⟨k, v⟩ := f
    have hk : k ∉ done.map Prod.fst := by
      rw [List.map_append, List.map_cons] at h
      exact fun hm => (List.nodup_append.1 h).2.2 k hm k List.mem_cons_self rfl
    have hmove : done ++ (k, v) :: new = (done ++ [(k, v)]) ++ new := by simp
    rw [hmove] at h ⊢
    rw [merge_cons, set_append hk]
    -- The field meets the first of the others, or none is left.
    cases fs with
    | nil =>
      have hrest : merge (done ++ [(k, v)] ++ []) new = done ++ [(k, v)] ++ new :=
        ih _ (by rw [List.map_nil, List.nil_append]) h
      rwa [List.append_nil] at hrest
    | cons g fs =>
      obtain ⟨hg, hrest⟩ := List.cons.inj hnames
      have hset : set k v (g :: fs) = [(k, v)] ++ fs := if_pos hg.symm
      rw [hset, ← List.append_assoc]
      exact ih _ hrest h

/-- **Fields that begin with the names of others come out as they are** when they are set over
those. -/
theorem merge_eq_of_names_eq {others : List Str}
    (hnames : new.map Prod.fst = fs.map Prod.fst ++ others) (h : (new.map Prod.fst).Nodup) :
    merge fs new = new :=
  merge_append [] hnames h

end AsmLens.Json
