import AsmLens.Proofs.Path.Display
import AsmLens.Proofs.Source.Loading

/-!
# Paths of the standard library, moved and shown

A path that leads into the standard library and is not there is moved below the sysroot: the
components from the library's directory on follow those of the sources below the sysroot
(`components_correct`). When it is shown, what stands before them is taken away again, because the
directory of the sources does not begin inside the sysroot and end inside itself
(`display_correct`). Each path is moved on its own, and the sysroot is asked for at most once
(`corrected_moves`).
-/

namespace AsmLens

open Text

namespace Source

theorem crateTail?_suffix {cs tail : List Text} (h : crateTail? cs = some tail) : tail <:+ cs := by
  fun_induction crateTail? cs with
  | case1 a b cs =>
    cases h
    exact List.suffix_rfl
  | case2 a b cs _ ih => exact (ih h).trans (List.suffix_cons a _)
  | case3 => cases h

/-- The tail of a path is the end of its components. -/
theorem libraryTail?_suffix {path : Text} {tail : List Text} (h : libraryTail? path = some tail) :
    tail <:+ Path.components path := by
  obtain h | ⟨-, h⟩ := Option.or_eq_some_iff.1 h
  · obtain ⟨a, ha⟩ := Path.afterRun?_eq_some_iff.1 h
    exact ⟨a ++ legacyDirectory, ha.eq.symm⟩
  · exact crateTail?_suffix h

/-- On every target the component of the library's sources is their directory below a sysroot. -/
theorem components_librarySources (t : Target) :
    Path.components t.librarySources = libraryDirectory := by
  unfold Target.librarySources
  split
  · decide +kernel
  · decide +kernel

theorem isComponent_of_mem_libraryDirectory {c : Text} (h : c ∈ libraryDirectory) :
    Path.IsComponent c := by
  rw [← components_librarySources ⟨[]⟩] at h
  exact Path.isComponent_of_mem h

end Source

namespace Correlation

open Source

variable {fs : FileSystem} {root path : Text} {tail : List Text} {sysroot : Action Text}
  {j : Journal}

/-- A path that is not there and leads into the standard library. -/
def IsMovable (fs : FileSystem) (path : Text) : Prop :=
  fs.finds path = false ∧ (libraryTail? path).isSome = true

/-- The sysroot is needed if and only if a path is to be moved below it. -/
theorem needsSysroot_iff {s : Sources} :
    needsSysroot fs s = true ↔ ∃ e ∈ s, IsMovable fs e.2.file.path := by
  simp only [needsSysroot, List.any_eq_true, displaced?_isSome_iff, IsMovable]

/-- Any other path stays as it is. -/
theorem correct_of_not_movable (root : Text) (h : ¬ IsMovable fs path) :
    correct fs root path = path := by
  rw [correct, Option.not_isSome_iff_eq_none.1 (mt displaced?_isSome_iff.1 h)]

/-- A moved path begins with a slash, as the sysroot does, and has the tail below the library's
sources. -/
theorem components_correct (hroot : Path.isRooted root = true) (hfinds : fs.finds path = false)
    (htail : libraryTail? path = some tail) :
    Path.isRooted (correct fs root path) = true ∧
      Path.components (correct fs root path) =
        Path.components root ++ libraryDirectory ++ tail := by
  have hcomponents : ∀ c ∈ libraryDirectory ++ tail, Path.IsComponent c := fun c hc => by
    obtain hc | hc := List.mem_append.1 hc
    · exact isComponent_of_mem_libraryDirectory hc
    · exact Path.isComponent_of_mem ((libraryTail?_suffix htail).subset hc)
  rw [correct, displaced?_eq_some_iff.2 ⟨hfinds, htail⟩, List.append_assoc]
  exact Path.foldl_joinRooted hroot hcomponents

theorem separator_of_isRooted {p : Text} (h : Path.isRooted p = true) :
    Path.separator p = '/' := by
  have hmem : '/' ∈ p := List.mem_of_head? (beq_iff_eq.1 h)
  simp [Path.separator, hmem]

/-- A moved path is shown by its tail. -/
theorem display_correct (hroot : Path.isRooted root = true)
    (hfree : ¬ libraryDirectory <:+: Path.components root) (hfinds : fs.finds path = false)
    (htail : libraryTail? path = some tail) (t : Target) (cwd : Text) :
    Path.display (correct fs root path) t.librarySources cwd = join ['/'] tail := by
  obtain ⟨hrooted, hcomponents⟩ := components_correct hroot hfinds htail
  have hnodup : libraryDirectory.Nodup := by decide
  have hrun : Path.IsFirstRun (Path.components t.librarySources)
      (Path.components (correct fs root path)) (Path.components root) tail := by
    rw [components_librarySources, hcomponents]
    exact .of_nodup hnodup hfree tail
  have habs : Path.isAbsolute (correct fs root path) = true := by
    rw [Path.isAbsolute, hrooted, Bool.true_or]
  rw [Path.display_of_library habs hrun, separator_of_isRooted hrooted]

/-- **The standard library below a sysroot.** The sysroot is a path from the root whose components
have not the directory of the library's sources in a row. Then a path that is there or leads
elsewhere stays as it is, and any other gets a path below the sysroot that ends in its tail and is
shown by the tail on every target. In a map of files each path becomes what it would become alone;
the sysroot is asked for once if a path is movable, and else not at all. -/
theorem corrected_moves (fs : FileSystem) (root : Text) (hroot : Path.isRooted root = true)
    (hfree : ¬ libraryDirectory <:+: Path.components root) :
    (∀ path, fs.finds path = true ∨ libraryTail? path = none → correct fs root path = path) ∧
    (∀ path tail, fs.finds path = false → libraryTail? path = some tail →
      tail <:+ Path.components path ∧
      Path.components (correct fs root path) = Path.components root ++ libraryDirectory ++ tail ∧
      ∀ (t : Target) (cwd : Text),
        Path.display (correct fs root path) t.librarySources cwd = join ['/'] tail) ∧
    ∀ (sysroot : Action Text) (j : Journal) (s : Sources), (sysroot.outcome j).1 = .ok root →
      ((corrected fs sysroot s).outcome j).1 =
        .ok (s.map fun e => (e.1, move e.2 (correct fs root e.2.file.path))) ∧
      ((∃ e ∈ s, IsMovable fs e.2.file.path) →
        ((corrected fs sysroot s).outcome j).2 = (sysroot.outcome j).2) ∧
      ((∀ e ∈ s, ¬ IsMovable fs e.2.file.path) → ((corrected fs sysroot s).outcome j).2 = j) := by
  refine ⟨fun path h => ?_, fun path tail hfinds htail => ?_, fun sysroot j s hsysroot => ?_⟩
  · apply correct_of_not_movable
    rintro ⟨hfinds, htail⟩
    obtain h | h := h
    · cases hfinds.symm.trans h
    · simp [h] at htail
  · exact ⟨libraryTail?_suffix htail, (components_correct hroot hfinds htail).2,
      display_correct hroot hfree hfinds htail⟩
  · rw [outcome_corrected hsysroot]
    refine ⟨rfl, fun h => ?_, fun h => ?_⟩
    · exact if_pos (needsSysroot_iff.2 h)
    · refine if_neg fun hneeds => ?_
      obtain ⟨e, he, hmovable⟩ := needsSysroot_iff.1 hneeds
      exact h e he hmovable

/-- The sysroot may end like the directory of the sources begins; a file that is there stays, and a
path of an old build service with backslashes is moved. -/
theorem corrected_moves_below_library :
    let fs : FileSystem := ⟨"/".toList, [("p/library/core/b.rs".toList.splitOn '/', [])], [], []⟩
    let root : Text := "/lib/rustlib/src".toList
    let there : Text := "/p/library/core/b.rs".toList
    let gone : Text := "C:\\travis\\build\\rust-lang\\rust\\src\\libcore\\num.rs".toList
    let tail : List Text := ["src".toList, "libcore".toList, "num.rs".toList]
    let moved : Text := "/lib/rustlib/src/lib/rustlib/src/rust/src/libcore/num.rs".toList
    let sysroot : Action Text := do
      Action.report "asked\n".toList
      return root
    let s : Sources := [(1, ⟨⟨there, 1⟩, []⟩), (2, ⟨⟨gone, 2⟩, []⟩)]
    (Path.isRooted root = true ∧ ¬ libraryDirectory <:+: Path.components root ∧
      fs.finds there = true ∧ fs.finds gone = false ∧ libraryTail? gone = some tail ∧
      (sysroot.outcome .empty).1 = .ok root ∧ IsMovable fs gone) ∧
    correct fs root there = there ∧ correct fs root gone = moved ∧
    (∀ (t : Target) (cwd : Text),
      Path.display moved t.librarySources cwd = "src/libcore/num.rs".toList) ∧
    (corrected fs sysroot s).outcome .empty =
      (.ok [(1, ⟨⟨there, 1⟩, []⟩), (2, ⟨⟨moved, 2⟩, []⟩)],
        { Journal.empty with diagnostics := "asked\n".toList }) := by
  intro fs root there gone tail moved sysroot s
  have hroot : Path.isRooted root = true := by decide
  have hfree : ¬ libraryDirectory <:+: Path.components root := by decide +kernel
  have hthere : fs.finds there = true := by decide +kernel
  have hgone : fs.finds gone = false := by decide +kernel
  have htail : libraryTail? gone = some tail := by decide +kernel
  have hmoved : correct fs root gone = moved := by decide +kernel
  have hsysroot : (sysroot.outcome .empty).1 = .ok root := rfl
  have hmovable : IsMovable fs gone := ⟨hgone, by rw [htail]; rfl⟩
  obtain ⟨hstays, hmoves, hall⟩ := corrected_moves fs root hroot hfree
  have hkept : correct fs root there = there := hstays there (.inl hthere)
  obtain ⟨hsources, hasked, -⟩ := hall sysroot .empty s hsysroot
  refine ⟨⟨hroot, hfree, hthere, hgone, htail, hsysroot, hmovable⟩, hkept, hmoved, fun t cwd => ?_,
    Prod.ext (hsources.trans ?_) (hasked ⟨(2, ⟨⟨gone, 2⟩, []⟩), by simp [s], hmovable⟩)⟩
  · rw [← hmoved, (hmoves gone tail hgone htail).2.2 t cwd]
    decide +kernel
  · simp only [s, List.map_cons, List.map_nil, move, hkept, hmoved]

end Correlation

end AsmLens
