import AsmLens.Proofs.Path.Normal
import AsmLens.Proofs.Source.Loading

/-!
# Source files that are there and cannot be opened

A source file counts as missing if nothing is found under its path in normal form. It is opened
under the path as it is. Both lead to the same place (`FileSystem.place_toText`), so a path that is
found opens as a file unless it is empty, leads to a directory, or says that a file is one
(`Foils`, `FileSystem.readText_error_iff`). Such a path stops correlating; a path that is not found
never does (`Correlation.ofFunction_ends`).
-/

namespace AsmLens

open Text Source

namespace FileSystem

variable {fs : FileSystem} {path : Text}

/-- Why a path that is found cannot be opened. -/
inductive Foils (fs : FileSystem) (path : Text) : OpenProblem → Prop where
  | empty (empty : path = []) : Foils fs path .notFound
  | directory (nonempty : path ≠ []) (entry : fs.entry? (fs.resolve path) = some .directory) :
    Foils fs path .isDirectory
  | slash {content} (nonempty : path ≠ [])
    (entry : fs.entry? (fs.resolve path) = some (.file content))
    (marked : saysDirectory path = true) : Foils fs path .notDirectory

/-- A path and its normal form lead to the same place. -/
theorem place_toText (fs : FileSystem) (path : Text) :
    fs.place (Path.Normal.ofText path).toText = fs.place path := by
  rw [place, place, Path.Normal.parts_joinRooted, Path.Normal.parts_joinRooted,
    Path.Normal.isRooted_toText, Path.Normal.parts_toText]

/-- What is found under a path in normal form is what stands where the path leads. -/
theorem entry?_of_findsNormal (h : fs.findsNormal path = true) :
    '\x00' ∉ path ∧ ∃ entry, fs.entry? (fs.resolve path) = some entry := by
  unfold findsNormal finds find? at h
  rw [resolve, place_toText] at h
  split at h
  · cases h
  · rename_i hnowhere
    constructor
    · intro hnul
      apply hnowhere
      rw [leadsNowhere, Bool.or_eq_true, List.contains_iff_mem]
      exact .inr (Path.Normal.mem_toText hnul (by decide) (by decide))
    · cases he : fs.entry? (fs.resolve path) with
      | some entry => exact ⟨entry, rfl⟩
      | none =>
        rw [resolve] at he
        rw [he] at h
        cases h

/-- A path that is found can be opened unless something foils it. -/
theorem readText_error_iff (h : fs.findsNormal path = true) {e : Failure} :
    fs.readText path = .error e ↔ ∃ problem, Foils fs path problem ∧ e = .cannotOpen problem := by
  obtain ⟨hnul, entry, hentry⟩ := entry?_of_findsNormal h
  have hleads : path ≠ [] → leadsNowhere path = false := fun hne => by
    simp [leadsNowhere, hne, hnul]
  rw [readText, map_eq_error]
  constructor
  · intro hread
    by_cases hne : path = []
    · subst hne
      cases hread
      exact ⟨_, .empty rfl, rfl⟩
    · rw [read, hleads hne, if_neg Bool.false_ne_true, hentry] at hread
      cases entry with
      | directory =>
        cases hread
        exact ⟨_, .directory hne hentry, rfl⟩
      | file content =>
        dsimp only at hread
        split at hread
        · rename_i hmarked
          cases hread
          exact ⟨_, .slash hne hentry hmarked, rfl⟩
        · cases hread
  · rintro ⟨problem, hfoils, rfl⟩
    cases hfoils with
    | empty hempty => rw [hempty]; rfl
    | directory hne hdirectory => rw [read, hleads hne, if_neg Bool.false_ne_true, hdirectory]
    | slash hne hfile hmarked =>
      rw [read, hleads hne, if_neg Bool.false_ne_true, hfile]
      exact if_pos hmarked

/-- A path that is found and that nothing foils is read. -/
theorem exists_readText_iff (h : fs.findsNormal path = true) :
    (∃ text, fs.readText path = .ok text) ↔ ∀ problem, ¬ Foils fs path problem := by
  constructor
  · rintro ⟨text, htext⟩ problem hfoils
    cases htext.symm.trans ((readText_error_iff h).2 ⟨problem, hfoils, rfl⟩)
  · intro hnone
    cases hread : fs.readText path with
    | ok text => exact ⟨text, rfl⟩
    | error e =>
      obtain ⟨problem, hfoils, -⟩ := (readText_error_iff h).1 hread
      exact absurd hfoils (hnone problem)

end FileSystem

namespace Correlation

variable {fs : FileSystem} {root : Text} {base : Option Text} {limit : Int} {f : Function}
  {table : FileTable}

/-- What correlating may fail for: a location whose file is not in the table, a file that is there
and cannot be opened, and a line that a file does not have. -/
inductive FailsFor (fs : FileSystem) (root : Text) (base : Option Text) (limit : Int)
    (f : Function) (table : FileTable) : Failure → Prop where
  | index {r} (reference : r ∈ referencedLocs f) (absent : table.get? r.file = none) :
    FailsFor fs root base limit f table (.incompleteTable f.id [r.file] table.indices)
  | foiled {r path problem} (reference : r ∈ referencedLocs f)
    (resolved : pathOf? fs root base table r.file = some path)
    (found : fs.findsNormal path = true) (foils : fs.Foils path problem) :
    FailsFor fs root base limit f table (.cannotOpen problem)
  | line {r path text l} (reference : r ∈ referencedLocs f)
    (resolved : pathOf? fs root base table r.file = some path)
    (found : fs.findsNormal path = true) (read : fs.readText path = .ok text)
    (asked : l ∈ fillGaps limit (linesOf f r.file)) (nonzero : l ≠ 0)
    (outside : ¬ HasLine (lines text) l) :
    FailsFor fs root base limit f table (.missingLine path l)

/-- No file that the function refers to is there and cannot be opened. -/
def NoneFoiled (fs : FileSystem) (root : Text) (base : Option Text) (f : Function)
    (table : FileTable) : Prop :=
  ∀ r ∈ referencedLocs f, ∀ path, pathOf? fs root base table r.file = some path →
    fs.findsNormal path = true → ∀ problem, ¬ fs.Foils path problem

/-- Naming the excerpts fails for an index without a file. -/
theorem wanted_error {e : Failure} (h : wanted limit f table = .error e) :
    ∃ r ∈ referencedLocs f, table.get? r.file = none ∧
      e = .incompleteTable f.id [r.file] table.indices := by
  obtain ⟨⟨i, ls⟩, hmem, he⟩ := mapM_eq_error h
  obtain ⟨⟨r, hr, rfl⟩, -⟩ := mem_references_iff.1 hmem
  dsimp only at he
  split at he
  · cases he
  · rename_i hnone
    cases he
    exact ⟨r, hr, hnone, rfl⟩

/-- All can be read if the table has the files and nothing foils them. -/
theorem canRead_iff :
    CanRead fs root base f table ↔
      (∀ r ∈ referencedLocs f, ∃ file, table.get? r.file = some file) ∧
        NoneFoiled fs root base f table := by
  constructor
  · intro h
    refine ⟨fun r hr => ?_, fun r hr path hpath hfound => ?_⟩
    · obtain ⟨path, hpath, -⟩ := h r hr
      obtain ⟨file, hfile, -⟩ := pathOf?_eq_some_iff.1 hpath
      exact ⟨file, hfile⟩
    · obtain ⟨path', hpath', hread⟩ := h r hr
      cases hpath.symm.trans hpath'
      exact (FileSystem.exists_readText_iff hfound).1 (hread hfound)
  · rintro ⟨hfiles, hnone⟩ r hr
    obtain ⟨file, hfile⟩ := hfiles r hr
    have hpath : pathOf? fs root base table r.file = some (resolvedPath fs root base file.path) :=
      pathOf?_eq_some_iff.2 ⟨file, hfile, rfl⟩
    exact ⟨_, hpath, fun hfound =>
      (FileSystem.exists_readText_iff hfound).2 (hnone r hr _ hpath hfound)⟩

/-- What is read could be read. -/
theorem canRead_of_readPresent {asked : Sources} {c : Correlation}
    (hasked : wanted limit f table = .ok asked)
    (h : readPresent fs (settled fs root base asked) = .ok c) : CanRead fs root base f table := by
  intro r hr
  obtain ⟨file, hfile⟩ := exists_wanted_iff.1 ⟨asked, hasked⟩ r hr
  refine ⟨_, pathOf?_eq_some_iff.2 ⟨file, hfile, rfl⟩, fun hfound => ?_⟩
  obtain ⟨e, hload⟩ :=
    exists_readPresent_iff.1 ⟨c, h⟩ _ _ (mem_settled fs root base hasked hr hfile) hfound
  obtain ⟨text, hread, -⟩ := load_eq_ok_iff.1 hload
  exact ⟨text, hread⟩

/-- **How correlating ends.** With a sysroot that can be told, it fails for nothing else than an
index without a file, a line outside its file, or a file that is found and cannot be opened: under
the empty path, under one that leads to a directory, or under one with a slash behind a file. It
returns if and only if there is none of these, and a path that is not found is then missing.

The files are those of a snapshot (`FileSystem`): a `..` is taken back in the text of a path before
it is looked up, every file that is there can be read, and no name is too long. On a machine each of
these is one more way for a file to be missing, or to be there and not open. -/
theorem ofFunction_ends (fs : FileSystem) (sysroot : Action Text) (limit : Int)
    (base : Option Text) (f : Function) (table : FileTable) (j : Journal) {root : Text}
    (hroot : (sysroot.outcome j).1 = .ok root) :
    let r := ((ofFunction fs sysroot limit base f table).outcome j).1
    (∀ e, r = .error e → FailsFor fs root base limit f table e) ∧
    ((∃ c, r = .ok c) ↔
      (∀ l ∈ referencedLocs f, ∃ file, table.get? l.file = some file) ∧
        NoneFoiled fs root base f table ∧ ¬ RefersOutside fs root base f table) ∧
    ∀ c, r = .ok c → ∀ path, path ∈ c.missing ↔
      (∃ l ∈ referencedLocs f, pathOf? fs root base table l.file = some path) ∧
        fs.findsNormal path = false := by
  rw [outcome_ofFunction hroot]
  refine ⟨fun e h => ?_, ?_, fun c h path => ?_⟩
  · rcases bind_eq_error.1 h with h | ⟨asked, hasked, h⟩
    · obtain ⟨l, hl, hnone, rfl⟩ := wanted_error h
      exact .index hl hnone
    · obtain ⟨l, hl, path, hpath, hfound, hread | ⟨text, hread, k, hk, hz, hline, rfl⟩⟩ :=
        readPresent_fails hasked h
      · obtain ⟨problem, hfoils, rfl⟩ := (FileSystem.readText_error_iff hfound).1 hread
        exact .foiled hl hpath hfound hfoils
      · exact .line hl hpath hfound hread hk hz hline
  · rw [← and_assoc, ← canRead_iff]
    constructor
    · rintro ⟨c, h⟩
      obtain ⟨asked, hasked, hread⟩ := bind_eq_ok.1 h
      have hcan := canRead_of_readPresent hasked hread
      exact ⟨hcan, (readPresent_ok_iff hasked hcan).1 ⟨c, hread⟩⟩
    · rintro ⟨hcan, hinside⟩
      obtain ⟨asked, hasked⟩ := exists_wanted_iff.2 (canRead_iff.1 hcan).1
      rw [hasked]
      exact (readPresent_ok_iff hasked hcan).2 hinside
  · obtain ⟨asked, hasked, hread⟩ := bind_eq_ok.1 h
    have hloads := loads_of_readPresent hasked hread
    constructor
    · intro hmissing
      obtain ⟨hfound, hl⟩ := hloads.missing path hmissing
      exact ⟨hl, hfound⟩
    · rintro ⟨⟨l, hl, hpath⟩, hfound⟩
      obtain ⟨path', hpath', hif⟩ := hloads.each l hl
      cases hpath.symm.trans hpath'
      rw [hfound, if_neg Bool.false_ne_true] at hif
      exact hif.2

/-- A file that is not there is missing and stops nothing; one with a slash behind it does. -/
theorem ofFunction_ends_at_slash :
    let fs : FileSystem :=
      ⟨"/".toList, [(["p".toList, "a.rs".toList], encode "a\n".toList)], [], []⟩
    let f : Function := ⟨[], none, none, [.loc ⟨1, 1, 0⟩]⟩
    let sysroot : Action Text := pure "/r".toList
    let run := fun path : Text =>
      ((ofFunction fs sysroot 5 none f [(1, ⟨path, 1⟩)]).outcome .empty).1
    (sysroot.outcome .empty).1 = .ok "/r".toList ∧
    (∃ c, run "/p/b.rs".toList = .ok c ∧ "/p/b.rs".toList ∈ c.missing) ∧
      ∃ e, run "/p/a.rs/".toList = .error e ∧
        FailsFor fs "/r".toList none 5 f [(1, ⟨"/p/a.rs/".toList, 1⟩)] e := by
  intro fs f sysroot run
  have hroot : (sysroot.outcome .empty).1 = .ok "/r".toList := rfl
  have hpath : pathOf? fs "/r".toList none [(1, ⟨"/p/b.rs".toList, 1⟩)] 1 =
      some "/p/b.rs".toList := by decide +kernel
  have habsent : fs.findsNormal "/p/b.rs".toList = false := by decide +kernel
  have hslash : run "/p/a.rs/".toList = .error (.cannotOpen .notDirectory) := by decide +kernel
  obtain ⟨-, hok, hmissing⟩ :=
    ofFunction_ends fs sysroot 5 none f [(1, ⟨"/p/b.rs".toList, 1⟩)] .empty hroot
  have hnot : ∀ r ∈ referencedLocs f, ∀ path,
      pathOf? fs "/r".toList none [(1, ⟨"/p/b.rs".toList, 1⟩)] r.file = some path →
        fs.findsNormal path ≠ true := by
    refine List.forall_mem_singleton.2 fun path hp hfound => ?_
    cases hpath.symm.trans hp
    cases habsent.symm.trans hfound
  have hinside : ¬ RefersOutside fs "/r".toList none f [(1, ⟨"/p/b.rs".toList, 1⟩)] := by
    rintro ⟨r, hr, -, path, -, hp, hfound, -⟩
    exact hnot r hr path hp hfound
  obtain ⟨c, hc⟩ := hok.2 ⟨List.forall_mem_singleton.2 ⟨_, rfl⟩,
    fun r hr path hp hfound => absurd hfound (hnot r hr path hp), hinside⟩
  have hin := (hmissing c hc _).2 ⟨⟨⟨1, 1, 0⟩, List.mem_singleton_self _, hpath⟩, habsent⟩
  exact ⟨hroot, ⟨c, hc, hin⟩, _, hslash,
    (ofFunction_ends fs sysroot 5 none f [(1, ⟨"/p/a.rs/".toList, 1⟩)] .empty hroot).1 _ hslash⟩

/-- The empty path, a directory and a file with a slash behind it are not missing: correlating stops
with a failure that no message reports. -/
theorem unopenable_paths_stop :
    let fs : FileSystem :=
      ⟨"/".toList, [(["p".toList, "a.rs".toList], encode "a\n".toList)], [], []⟩
    let f : Function := ⟨[], none, none, [.loc ⟨1, 1, 0⟩]⟩
    let sysroot : Action Text := pure "/r".toList
    let run := fun path : Text =>
      ((ofFunction fs sysroot 5 none f [(1, ⟨path, 1⟩)]).outcome .empty).1
    run [] = .error (.cannotOpen .notFound) ∧ run "/p".toList = .error (.cannotOpen .isDirectory) ∧
      run "/p/a.rs/".toList = .error (.cannotOpen .notDirectory) ∧
        ∀ problem, (Failure.cannotOpen problem).message? = none := by
  exact ⟨by decide +kernel, by decide +kernel, by decide +kernel, fun _ => rfl⟩

end Correlation

end AsmLens
