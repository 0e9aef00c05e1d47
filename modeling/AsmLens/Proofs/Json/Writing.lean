import AsmLens.Proofs.Json.RoundTrip

/-!
# Values written chunk by chunk

The depth of a value decides what comes of writing it, if its integers are not too long
(`written_of_depth_le`, `written_of_lt_depth`): its text, or a beginning of that and the failure.
Chunks keep the contract `Writes`, which says so of the text they spell and of the condition on
which they all go out; it is closed under appending.
-/

namespace AsmLens.Json

open Text

/-- The chunks spell the text, and all of them go out if and only if the condition holds; else the
last thing met was one level too many. -/
structure Writes (p : Prop) (t : Text) (cs : List Chunk) : Prop where
  whole : p → writeOut cs = (.ok (), t)
  part : ¬ p → ∃ s, s <+: t ∧ writeOut cs = (.error .tooDeep, s)

variable {v : Json} {vs : List Json} {fs : Fields} {d level : Nat} {s t u : Text}
  {p q : Prop} {cs ds : List Chunk}

/-! ## The contract -/

/-- Where the first chunks are written out, the others follow. -/
theorem writeOut_append (h : writeOut cs = (.ok (), s)) (ds : List Chunk) :
    writeOut (cs ++ ds) = ((writeOut ds).1, s ++ (writeOut ds).2) := by
  induction cs generalizing s with
  | nil =>
    cases h
    rfl
  | cons c cs ih =>
    cases c with
    | error e => cases h
    | ok t =>
      obtain ⟨hdone, rfl⟩ := Prod.mk.inj h
      rw [List.cons_append, writeOut, ih (Prod.ext hdone rfl), List.append_assoc]

/-- What stops the writing is the last of it. -/
theorem writeOut_append_error {e : Failure} (h : writeOut cs = (.error e, s)) (ds : List Chunk) :
    writeOut (cs ++ ds) = (.error e, s) := by
  induction cs generalizing s with
  | nil => cases h
  | cons c cs ih =>
    cases c with
    | error e => exact h
    | ok t =>
      obtain ⟨hstop, rfl⟩ := Prod.mk.inj h
      rw [List.cons_append, writeOut, ih (Prod.ext hstop rfl)]

/-- Chunks one after the other stand for the texts one after the other. -/
theorem Writes.append (h : Writes p t cs) (h' : Writes q u ds) :
    Writes (p ∧ q) (t ++ u) (cs ++ ds) := by
  constructor
  · rintro ⟨hp, hq⟩
    rw [writeOut_append (h.whole hp), h'.whole hq]
  · intro hno
    by_cases hp : p
    · obtain ⟨s, hs, hstop⟩ := h'.part fun hq => hno ⟨hp, hq⟩
      refine ⟨t ++ s, (List.prefix_append_right_inj t).2 hs, ?_⟩
      rw [writeOut_append (h.whole hp), hstop]
    · obtain ⟨s, hs, hstop⟩ := h.part hp
      exact ⟨s, hs.trans (List.prefix_append t u), writeOut_append_error hstop ds⟩

theorem Writes.mono (h : Writes p t cs) (hpq : p ↔ q) : Writes q t cs :=
  ⟨fun hq => h.whole (hpq.2 hq), fun hq => h.part fun hp => hq (hpq.1 hp)⟩

theorem writes_nil : Writes True [] [] :=
  ⟨fun _ => rfl, fun h => absurd trivial h⟩

theorem writes_ok (t : Text) : Writes True t [.ok t] :=
  ⟨fun _ => by rw [writeOut, writeOut, List.append_nil], fun h => absurd trivial h⟩

/-- Chunks between brackets go out if there is a level left. -/
theorem Writes.inside (h : Writes p t cs) : Writes (d ≠ 0 ∧ p) t (inside d cs) := by
  unfold Json.inside
  split
  · rename_i hd
    exact ⟨fun hp => absurd hd hp.1, fun _ => ⟨[], List.nil_prefix, rfl⟩⟩
  · rename_i hd
    exact h.mono (and_iff_right hd).symm

/-- A value that is no array or object goes out in one chunk. -/
theorem chunks_of_not_isNested (hread : IsReadable v) (h : v.isNested = false) (d level : Nat) :
    chunks d level v = [.ok (render level v)] := by
  cases hread with
  | int hshort =>
    rw [chunks, render]
    exact congrArg (fun c => [c]) (if_pos hshort)
  | arr => cases h
  | obj => cases h
  | bool b => cases b <;> rfl
  | _ => rfl

/-- A text before an item goes out before it or with it. -/
theorem Writes.behind (h : Writes p (render level v) (chunks d level v)) (hread : IsReadable v)
    (lead : Text) : Writes p (lead ++ render level v) (behind lead v (chunks d level v)) := by
  unfold Json.behind
  split
  · exact ((writes_ok lead).append h).mono (and_iff_right trivial)
  · rename_i hword
    rw [chunks_of_not_isNested hread (Bool.eq_false_iff.2 hword)] at h ⊢
    have hp : p := by
      by_contra hno
      obtain ⟨s, -, hstop⟩ := h.part hno
      cases hstop
    exact (writes_ok _).mono (iff_of_true trivial hp)

/-! ## Values -/

/-- A value that is not nested is written in one piece. -/
theorem writes_word (hread : IsReadable v) (h : v.isNested = false) (d level : Nat) :
    Writes (v.depth ≤ d) (render level v) (chunks d level v) := by
  have hdepth : v.depth ≤ d := by
    cases v with
    | arr | obj => cases h
    | _ => exact Nat.zero_le d
  rw [chunks_of_not_isNested hread h]
  exact (writes_ok _).mono (iff_of_true trivial hdepth)

theorem writes_itemChunks (hread : ∀ v ∈ vs, IsReadable v)
    (h : ∀ v ∈ vs, Writes (v.depth ≤ d) (render level v) (chunks d level v)) :
    Writes (depthOfItems vs ≤ d) (renderItems level vs) (itemChunks d level vs) := by
  induction vs with
  | nil => exact writes_nil.mono (iff_of_true trivial (Nat.zero_le d))
  | cons v vs ih =>
    obtain ⟨hv, hvs⟩ := List.forall_mem_cons.1 h
    obtain ⟨hreadv, hreadvs⟩ := List.forall_mem_cons.1 hread
    exact ((hv.behind hreadv _).append (ih hreadvs hvs)).mono Nat.max_le.symm

theorem writes_fieldChunks
    (h : ∀ f ∈ fs, Writes (f.2.depth ≤ d) (render level f.2) (chunks d level f.2)) :
    Writes (depthOfFields fs ≤ d) (renderFields level fs) (fieldChunks d level fs) := by
  induction fs with
  | nil => exact writes_nil.mono (iff_of_true trivial (Nat.zero_le d))
  | cons f fs ih =>
    obtain ⟨hf, hfs⟩ := List.forall_mem_cons.1 h
    have hall := ((writes_ok (',' :: newline level ++ quote f.1 ++ [':', ' '])).append hf).append
      (ih hfs)
    have htext : ',' :: newline level ++ quote f.1 ++ [':', ' '] ++ render level f.2
        ++ renderFields level fs = renderFields level (f :: fs) := by
      simp [renderFields]
    rw [← htext]
    exact hall.mono ((and_congr_left' (and_iff_right trivial)).trans Nat.max_le.symm)

/-- **The chunks of a value spell its text**, and all go out if its depth allows it. -/
theorem writes_chunks (hread : IsReadable v) (d level : Nat) :
    Writes (v.depth ≤ d) (render level v) (chunks d level v) := by
  -- On what makes the value readable: items and fields come one level further in, with less depth.
  induction hread generalizing d level with
  | @arr vs hread ih =>
    cases vs with
    | nil =>
      refine ((writes_ok ['[', ']']).inside (d := d)).mono ?_
      simp [depth, depthOfItems, Nat.one_le_iff_ne_zero]
    | cons v vs =>
      obtain ⟨hreadv, hreadvs⟩ := List.forall_mem_cons.1 hread
      obtain ⟨hv, hvs⟩ := List.forall_mem_cons.1 fun v hv => ih v hv (d - 1) (level + 1)
      have hall := ((hv.behind hreadv ('[' :: newline (level + 1))).append
        (writes_itemChunks hreadvs hvs)).append (writes_ok (newline level ++ [']']))
      rw [render, List.append_assoc _ (newline level)]
      refine (hall.inside (d := d)).mono ?_
      simp only [depth, depthOfItems, and_true]
      omega
  | @obj fs hnames hjoined hread ih =>
    cases fs with
    | nil =>
      refine ((writes_ok ['\x7b', '\x7d']).inside (d := d)).mono ?_
      simp [depth, depthOfFields, Nat.one_le_iff_ne_zero]
    | cons f fs =>
      obtain ⟨hf, hfs⟩ := List.forall_mem_cons.1 fun f hf => ih f hf (d - 1) (level + 1)
      have hall := (((writes_ok ('\x7b' :: newline (level + 1) ++ quote f.1 ++ [':', ' '])).append
        hf).append (writes_fieldChunks hfs)).append (writes_ok (newline level ++ ['\x7d']))
      have htext : '\x7b' :: newline (level + 1) ++ quote f.1 ++ [':', ' '] ++ render (level + 1) f.2
          ++ renderFields (level + 1) fs ++ (newline level ++ ['\x7d']) =
          render level (obj (f :: fs)) := by
        simp [render]
      rw [← htext]
      refine (hall.inside (d := d)).mono ?_
      simp only [depth, depthOfFields, true_and, and_true]
      omega
  | null => exact writes_word .null rfl d level
  | bool b => exact writes_word (.bool b) rfl d level
  | int h => exact writes_word (.int h) rfl d level
  | real x => exact writes_word (.real x) rfl d level
  | str h => exact writes_word (.str h) rfl d level

/-- **A value within the depth is written as it is printed.** -/
theorem written_of_depth_le (hread : IsReadable v) (hd : v.depth ≤ d) :
    written d v = (.ok (), print v) :=
  (writes_chunks hread d 0).whole hd

/-- **Of a value beyond the depth a beginning is written.** -/
theorem written_of_lt_depth (hread : IsReadable v) (hd : d < v.depth) :
    ∃ s, s <+: print v ∧ written d v = (.error .tooDeep, s) :=
  (writes_chunks hread d 0).part (Nat.not_le_of_lt hd)

end AsmLens.Json
