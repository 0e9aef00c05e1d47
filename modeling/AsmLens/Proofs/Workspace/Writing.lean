import AsmLens.Proofs.Outcome
import AsmLens.Proofs.Path.Normal
import AsmLens.Workspace.FileSystem

/-!
# Files that are written

A file that was written is found with its content (`find?_of_write`), also after more directories
were made, and what is found under a path is what is read of it (`read_of_find?`). A path in normal
form finds what it finds as it is (`findsNormal_toText`).

A directory can be made if nothing obstructs it or a place above it (`makeDirectory_eq_ok_iff`), and
made again after a file was written (`makeDirectory_of_write`).
-/

namespace AsmLens.FileSystem

open Text

variable {fs fs' : FileSystem} {path text directory : Text} {bs : List UInt8} {p q : Place}

/-- A path in normal form is found as it is. -/
theorem findsNormal_toText {n : Path.Normal} (h : n.IsNormal) (fs : FileSystem) :
    fs.findsNormal n.toText = fs.finds n.toText := by
  rw [findsNormal, h.toText_ofText]

/-- A file is found under a path that leads to it and does not say that it is a directory. -/
theorem find?_file_iff :
    fs.find? path = some (.file bs) ↔
      leadsNowhere path = false ∧ saysDirectory path = false ∧
        fs.entry? (fs.resolve path) = some (.file bs) := by
  unfold find?
  cases leadsNowhere path with
  | true => simp
  | false =>
    rw [if_neg Bool.false_ne_true]
    split
    · rename_i content he
      rw [he]
      cases saysDirectory path <;> simp
    · rename_i hno
      constructor
      · intro h
        exact absurd h (hno bs)
      · rintro ⟨-, -, h⟩
        exact absurd h (hno bs)

/-- What is found under a path is what is read of it. -/
theorem read_of_find? {found : Entry} (h : fs.find? path = some found) :
    fs.read path = match found with
      | .file content => .ok content
      | .directory => .error (.cannotOpen .isDirectory) := by
  cases found with
  | file content =>
    obtain ⟨hleads, hsays, hentry⟩ := find?_file_iff.1 h
    rw [read, hleads, if_neg Bool.false_ne_true, hentry, hsays]
    rfl
  | directory =>
    unfold find? at h
    split at h
    · cases h
    · rename_i hleads
      rw [read, if_neg hleads]
      split at h
      · split at h <;> cases h
      · rw [h]

/-- A path that can be written to names no directory and leads somewhere. -/
theorem writable_eq_ok (h : fs.writable path = .ok p) :
    leadsNowhere path = false ∧ saysDirectory path = false ∧ p = fs.resolve path ∧
      fs.entry? p ≠ some .directory := by
  unfold writable at h
  split at h
  · cases h
  · rename_i hleads
    dsimp only at h
    split at h
    · cases h
    · rename_i hentry
      split at h
      · cases h
      · split at h
        · cases h
        · rename_i hsays
          cases h
          exact ⟨Bool.eq_false_iff.2 hleads, Bool.eq_false_iff.2 hsays, rfl, hentry⟩

/-- **A file that was written is found with its content.** -/
theorem find?_of_write (h : fs.write path text = .ok fs') :
    fs'.find? path = some (.file (encode text)) := by
  obtain ⟨p, hp, rfl⟩ := map_eq_ok.1 h
  obtain ⟨hleads, hsays, rfl, -⟩ := writable_eq_ok hp
  refine find?_file_iff.2 ⟨hleads, hsays, ?_⟩
  -- Places and links are what they were, so the path leads where it led.
  have hresolve : (fs.put (fs.resolve path) (encode text)).resolve path = fs.resolve path := rfl
  rw [hresolve, entry?, put, List.lookup_cons, beq_self_eq_true]

/-! ## Directories -/

/-- Making a directory leaves the files and the links as they are. -/
theorem makeDirectory_frame (fs : FileSystem) (directory : Text) :
    (fs.makeDirectory directory).2.files = fs.files ∧
      (fs.makeDirectory directory).2.links = fs.links ∧
      (fs.makeDirectory directory).2.cwd = fs.cwd := by
  unfold makeDirectory
  dsimp only
  split
  · exact ⟨rfl, rfl, rfl⟩
  · split <;> exact ⟨rfl, rfl, rfl⟩

/-- A file is still found once a directory is made. -/
theorem find?_makeDirectory (h : fs.find? path = some (.file bs)) (directory : Text) :
    (fs.makeDirectory directory).2.find? path = some (.file bs) := by
  obtain ⟨hfiles, hlinks, hcwd⟩ := fs.makeDirectory_frame directory
  obtain ⟨hleads, hsays, hentry⟩ := find?_file_iff.1 h
  refine find?_file_iff.2 ⟨hleads, hsays, ?_⟩
  have hresolve : (fs.makeDirectory directory).2.resolve path = fs.resolve path := by
    unfold resolve follow place
    rw [hlinks, hcwd]
  unfold entry? at hentry ⊢
  rw [hresolve, hfiles]
  split at hentry
  · exact hentry
  · split at hentry <;> cases hentry

/-- **A directory can be made if nothing obstructs it** or a place above it; else something stands
above it or in its place. -/
theorem makeDirectory_cases (fs : FileSystem) (directory : Text) :
    (fs.makeDirectory directory = (.ok (), { fs with
        directories := fs.place directory :: fs.directories }) ∧
      ∀ n, fs.obstructs ((fs.place directory).take n) = false) ∨
    (fs.makeDirectory directory = (.error (.cannotOpen .notDirectory), fs) ∧
      ∃ n < (fs.place directory).length, fs.obstructs ((fs.place directory).take n) = true) ∨
    (fs.makeDirectory directory = (.error (.cannotOpen .alreadyExists), fs) ∧
      fs.obstructs (fs.place directory) = true) := by
  unfold makeDirectory
  dsimp only
  split
  · rename_i habove
    obtain ⟨n, hn, hobstructs⟩ := List.any_eq_true.1 habove
    exact .inr (.inl ⟨rfl, n, List.mem_range.1 hn, hobstructs⟩)
  · rename_i habove
    split
    · rename_i hthere
      exact .inr (.inr ⟨rfl, hthere⟩)
    · rename_i hthere
      refine .inl ⟨rfl, fun n => ?_⟩
      rcases Nat.lt_or_ge n (fs.place directory).length with hn | hn
      · exact Bool.eq_false_iff.2 fun hobstructs =>
          habove (List.any_eq_true.2 ⟨n, List.mem_range.2 hn, hobstructs⟩)
      · rw [List.take_of_length_le hn]
        exact Bool.eq_false_iff.2 hthere

/-- A directory can be made if and only if nothing is in the way, at it or above it. -/
theorem makeDirectory_eq_ok_iff :
    (fs.makeDirectory directory).1 = .ok () ↔
      ∀ n, fs.obstructs ((fs.place directory).take n) = false := by
  rcases fs.makeDirectory_cases directory with ⟨h, hclear⟩ | ⟨h, n, -, hn⟩ | ⟨h, hthere⟩
  · exact iff_of_true (congrArg Prod.fst h) hclear
  · refine iff_of_false (fun hok => ?_) fun hclear => Bool.false_ne_true (hclear n ▸ hn :)
    rw [h] at hok
    cases hok
  · refine iff_of_false (fun hok => ?_) fun hclear => ?_
    · rw [h] at hok
      cases hok
    · have hwhole := hclear (fs.place directory).length
      rw [List.take_length] at hwhole
      exact Bool.false_ne_true (hwhole.symm.trans hthere)

/-- A place is in the way if a file or a link that leads to no directory is there. -/
theorem obstructs_eq_false_iff :
    fs.obstructs p = false ↔ fs.files.lookup (fs.follow p) = none ∧
      (fs.links.lookup p = none ∨ fs.isDirectory (fs.follow p) = true) := by
  rw [obstructs, Bool.or_eq_false_iff, Option.isSome_eq_false_iff, Option.isNone_iff_eq_none]
  cases fs.links.lookup p <;> cases fs.isDirectory (fs.follow p) <;> simp

/-- Places stay directories when a file is written. -/
theorem isDirectory_put (h : fs.isDirectory q = true) (p : Place) (bs : List UInt8) :
    (fs.put p bs).isDirectory q = true := by
  unfold isDirectory at h ⊢
  simp only [Bool.or_eq_true] at h ⊢
  refine h.imp_left (Or.imp id ?_)
  intro habove
  obtain ⟨f, hf, hq⟩ := List.any_eq_true.1 habove
  -- A file that is replaced stands where the new one stands.
  by_cases hp : f.1 = p
  · exact List.any_eq_true.2 ⟨(p, bs), List.mem_cons_self, hp ▸ hq⟩
  · refine List.any_eq_true.2 ⟨f, List.mem_cons_of_mem _ (List.mem_filter.2 ⟨hf, ?_⟩), hq⟩
    simpa using hp

/-- The place of a directory that is made and all above it are directories then, and places that
were directories stay so. -/
theorem isDirectory_cons (h : fs.isDirectory q = true ∨ ∃ n, q = p.take n) :
    { fs with directories := p :: fs.directories }.isDirectory q = true := by
  unfold isDirectory at h ⊢
  simp only [Bool.or_eq_true, List.any_cons] at h ⊢
  rcases h with (((h | h) | h) | h) | ⟨n, rfl⟩
  · exact .inl (.inl (.inl h))
  · exact .inl (.inl (.inr (.inr h)))
  · exact .inl (.inr h)
  · exact .inr h
  · exact .inl (.inl (.inr (.inl (List.isPrefixOf_iff_prefix.2 (List.take_prefix n p)))))

/-- **A directory that was made can be made again** after a file was written. -/
theorem makeDirectory_of_write (hmade : (fs.makeDirectory directory).1 = .ok ())
    (hwrite : (fs.makeDirectory directory).2.write path text = .ok fs') :
    (fs'.makeDirectory directory).1 = .ok () := by
  obtain ⟨hmake, hclear⟩ : fs.makeDirectory directory = (.ok (), { fs with
        directories := fs.place directory :: fs.directories }) ∧
      ∀ n, fs.obstructs ((fs.place directory).take n) = false := by
    rcases fs.makeDirectory_cases directory with h | ⟨h, -⟩ | ⟨h, -⟩
    · exact h
    · rw [h] at hmade
      cases hmade
    · rw [h] at hmade
      cases hmade
  rw [hmake] at hwrite
  obtain ⟨p, hp, rfl⟩ := map_eq_ok.1 hwrite
  obtain ⟨-, -, -, hentry⟩ := writable_eq_ok hp
  refine makeDirectory_eq_ok_iff.2 fun n => obstructs_eq_false_iff.2 ?_
  obtain ⟨hnone, hleads⟩ := obstructs_eq_false_iff.1 (hclear n)
  have hdirectory := hleads.imp_right fun h =>
    isDirectory_cons (p := fs.place directory) (.inl h)
  -- The file is not written over the directory, nor over one above it.
  have hne : p ≠ fs.follow ((fs.place directory).take n) := by
    rintro rfl
    refine hentry ?_
    have hmade : { fs with directories := fs.place directory :: fs.directories }.isDirectory
        (fs.follow ((fs.place directory).take n)) = true := by
      rcases hleads with hplain | h
      · exact isDirectory_cons (.inr ⟨n, by rw [follow, hplain]; rfl⟩)
      · exact isDirectory_cons (.inl h)
    unfold entry?
    rw [show List.lookup _ fs.files = none from hnone]
    exact if_pos hmade
  refine ⟨List.lookup_eq_none_iff.2 fun f hf => ?_,
    hdirectory.imp_right fun h => isDirectory_put h p (encode text)⟩
  rcases List.mem_cons.1 hf with rfl | hf
  · exact bne_iff_ne.2 hne.symm
  · exact List.lookup_eq_none_iff.1 hnone f (List.mem_filter.1 hf).1

end AsmLens.FileSystem
