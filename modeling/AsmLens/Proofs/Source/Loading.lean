import AsmLens.Proofs.Source.Correlating
import AsmLens.Proofs.Source.Reading

/-!
# What correlating loads

With a sysroot that can be told, the outcome of correlating is told by the files alone
(`outcome_ofFunction`). Each file that the function refers to is read or reported as missing, as
its resolved path is there or not (`Loads`), and correlating fails for a line if and only if a line
that the function refers to is outside its file: the lines of gaps lie between two such lines, and
so have text if these have (`ofFunction_loads`).
-/

namespace AsmLens

open Text Source

namespace Correlation

variable {fs : FileSystem} {root : Text} {base : Option Text} {limit : Int} {f : Function}
  {table : FileTable} {sysroot : Action Text} {j : Journal}

/-- A path below the base directory or the sysroot, where it leads there. -/
def resolvedPath (fs : FileSystem) (root : Text) (base : Option Text) (path : Text) : Text :=
  correct fs root (resolve fs base path)

/-- The resolved path of the file with an index. -/
def pathOf? (fs : FileSystem) (root : Text) (base : Option Text) (table : FileTable) (index : Int) :
    Option Text :=
  (table.get? index).map fun file => resolvedPath fs root base file.path

/-- An excerpt holds the lines that are referred to and those in short gaps, with the text that
they have in the file; line 0 holds none. -/
structure Holds (fs : FileSystem) (limit : Int) (path : Text) (refs : List Int) (e : Excerpt) :
    Prop where
  moved : e.file.path = path
  numbers : e.lines.map Prod.fst = fillGaps limit refs
  text : ∃ text, fs.readText path = .ok text ∧ ∀ l ∈ fillGaps limit refs,
    (l = 0 ∧ e.lines.lookup l = some none) ∨
      (1 ≤ l ∧ ∃ raw, (lines text)[(l - 1).toNat]? = some raw ∧
        e.lines.lookup l = some (some (trim raw)))

/-- What is loaded: the files that the function refers to and that are there, and no others; those
that are not there are missing. -/
structure Loads (fs : FileSystem) (root : Text) (base : Option Text) (limit : Int) (f : Function)
    (table : FileTable) (c : Correlation) : Prop where
  each : ∀ r ∈ referencedLocs f, ∃ path, pathOf? fs root base table r.file = some path ∧
    if fs.findsNormal path then
      ∃ e, c.sources.lookup r.file = some e ∧ Holds fs limit path (linesOf f r.file) e
    else c.sources.lookup r.file = none ∧ path ∈ c.missing
  only : ∀ i e, (i, e) ∈ c.sources → ∃ r ∈ referencedLocs f, r.file = i
  missing : ∀ path ∈ c.missing, fs.findsNormal path = false ∧
    ∃ r ∈ referencedLocs f, pathOf? fs root base table r.file = some path

/-- The table has the files that the function refers to, and those that are there can be read. -/
def CanRead (fs : FileSystem) (root : Text) (base : Option Text) (f : Function)
    (table : FileTable) : Prop :=
  ∀ r ∈ referencedLocs f, ∃ path, pathOf? fs root base table r.file = some path ∧
    (fs.findsNormal path = true → ∃ text, fs.readText path = .ok text)

/-- The function refers to a line that its file does not have, though the file is there. -/
def RefersOutside (fs : FileSystem) (root : Text) (base : Option Text) (f : Function)
    (table : FileTable) : Prop :=
  ∃ r ∈ referencedLocs f, r.line ≠ 0 ∧ ∃ path text, pathOf? fs root base table r.file = some path ∧
    fs.findsNormal path = true ∧ fs.readText path = .ok text ∧ ¬ HasLine (lines text) r.line

/-- Lines in gaps are in the file if the lines around them are. -/
theorem hasLine_fillGaps {ls : List Text} {refs : List Int} (h : ∀ l ∈ refs, l ≠ 0 → HasLine ls l) :
    ∀ l ∈ fillGaps limit refs, l ≠ 0 → HasLine ls l := by
  intro l hl hz
  rcases mem_fillGaps_iff.1 hl with hl | ⟨a, b, hn, ha, -, hal, hlb⟩
  · exact h l hl hz
  · have hfirst := h a hn.left ha
    have hlast := h b hn.right (by have := hfirst.1; omega)
    exact ⟨by have := hfirst.1; omega, by have := hlast.2; omega⟩

/-! ## What is asked for -/

/-- The excerpts that are asked for, with resolved paths. -/
def settled (fs : FileSystem) (root : Text) (base : Option Text) (asked : Sources) : Sources :=
  correctAll fs root (resolveAll fs base asked)

/-- The excerpts asked for, with their paths settled. -/
theorem mem_settled_iff {asked : Sources} (h : wanted limit f table = .ok asked) {i : Int}
    {e : Excerpt} :
    (i, e) ∈ settled fs root base asked ↔ (∃ r ∈ referencedLocs f, r.file = i) ∧
      ∃ file, table.get? i = some file ∧
        e = unread ⟨resolvedPath fs root base file.path, file.index⟩
          (fillGaps limit (linesOf f i)) := by
  have hasked : ∀ e, (i, e) ∈ asked ↔ (∃ r ∈ referencedLocs f, r.file = i) ∧
      ∃ file, table.get? i = some file ∧ e = unread file (fillGaps limit (linesOf f i)) := by
    intro e
    rw [mem_iff_of_mapM h]
    constructor
    · rintro ⟨⟨k, ls⟩, hmem, hx⟩
      obtain ⟨hr, rfl⟩ := mem_references_iff.1 hmem
      dsimp only at hx
      split at hx
      · rename_i file hfile
        cases hx
        exact ⟨hr, file, hfile, rfl⟩
      · cases hx
    · rintro ⟨hr, file, hfile, rfl⟩
      exact ⟨(i, linesOf f i), mem_references_iff.2 ⟨hr, rfl⟩, by simp [hfile]; rfl⟩
  rw [settled, correctAll, resolveAll, List.map_map, List.mem_map]
  constructor
  · rintro ⟨⟨k, e'⟩, hmem, he⟩
    cases he
    obtain ⟨hr, file, hfile, rfl⟩ := (hasked e').1 hmem
    exact ⟨hr, file, hfile, rfl⟩
  · rintro ⟨hr, file, hfile, rfl⟩
    exact ⟨(i, unread file (fillGaps limit (linesOf f i))), (hasked _).2 ⟨hr, file, hfile, rfl⟩, rfl⟩

theorem mem_settled (fs : FileSystem) (root : Text) (base : Option Text) {asked : Sources}
    (h : wanted limit f table = .ok asked) {r : Loc} (hr : r ∈ referencedLocs f) {file : FileEntry}
    (hfile : table.get? r.file = some file) :
    (r.file, unread ⟨resolvedPath fs root base file.path, file.index⟩
      (fillGaps limit (linesOf f r.file))) ∈ settled fs root base asked :=
  (mem_settled_iff h).2 ⟨⟨r, hr, rfl⟩, file, hfile, rfl⟩

theorem nodup_settled {asked : Sources} (h : wanted limit f table = .ok asked) :
    ((settled fs root base asked).map Prod.fst).Nodup := by
  have hkeys : asked.map Prod.fst = (references f).map Prod.fst := by
    refine map_of_mapM (fun a b hb => ?_) h
    dsimp only at hb
    split at hb
    · cases hb
      rfl
    · cases hb
  have hsettled : (settled fs root base asked).map Prod.fst = asked.map Prod.fst := by
    simp [settled, correctAll, resolveAll, Function.comp_def]
  rw [hsettled, hkeys]
  exact nodup_references f

/-! ## What is read -/

/-- The excerpts of the files that are there, read, and the paths of those that are not. -/
def readPresent (fs : FileSystem) (s : Sources) : Except Failure Correlation := do
  let sources ← (s.filter fun e => isPresent fs e.2).mapM fun (i, e) =>
    (load fs e).map fun e => (i, e)
  return ⟨sources, (s.filter fun e => !isPresent fs e.2).map fun e => e.2.file.path⟩

/-- Reading all excerpts comes to reading those that are present. -/
theorem outcome_readAll (s : Sources) : ((readAll fs s).outcome j).1 = readPresent fs s := by
  unfold readAll
  dsimp only
  split
  · exact Action.outcome_ofExcept_bind _ _ _
  · exact Action.outcome_ofExcept_bind _ _ _

theorem displaced?_eq_some_iff {path : Text} {tail : List Text} :
    displaced? fs path = some tail ↔ fs.finds path = false ∧ libraryTail? path = some tail := by
  unfold displaced?
  cases fs.finds path <;> simp

theorem displaced?_isSome_iff {path : Text} :
    (displaced? fs path).isSome = true ↔
      fs.finds path = false ∧ (libraryTail? path).isSome = true := by
  simp only [Option.isSome_iff_exists, displaced?_eq_some_iff, exists_and_left]

/-- Without a displaced path there is nothing to correct. -/
theorem correctAll_eq_self {s : Sources} (h : needsSysroot fs s = false) :
    correctAll fs root s = s := by
  rw [needsSysroot, List.any_eq_false] at h
  refine (List.map_congr_left fun p hp => ?_).trans (List.map_id s)
  obtain ⟨i, e⟩ := p
  have hnone := Option.not_isSome_iff_eq_none.1 (h _ hp)
  dsimp only at hnone ⊢
  rw [correct, hnone]
  rfl

/-- With a sysroot that can be told all paths are corrected, and it is asked for if one needs it. -/
theorem outcome_corrected (hroot : (sysroot.outcome j).1 = .ok root) (s : Sources) :
    (corrected fs sysroot s).outcome j =
      (.ok (correctAll fs root s), if needsSysroot fs s then (sysroot.outcome j).2 else j) := by
  unfold corrected
  split
  · rw [Action.outcome_bind_of_ok hroot]
    rfl
  · rename_i hneeds
    rw [correctAll_eq_self (Bool.eq_false_iff.2 hneeds)]
    rfl

/-- With a sysroot that can be told, the outcome is told by the files. -/
theorem outcome_ofFunction (hroot : (sysroot.outcome j).1 = .ok root) :
    ((ofFunction fs sysroot limit base f table).outcome j).1 =
      wanted limit f table >>= fun asked => readPresent fs (settled fs root base asked) := by
  rw [ofFunction, Action.outcome_ofExcept_bind]
  refine congrArg _ (funext fun asked => ?_)
  rw [Action.outcome_bind_of_ok (congrArg Prod.fst (outcome_corrected hroot _)), outcome_readAll]
  rfl

/-- The sources are the excerpts that are present, loaded. -/
theorem mem_sources_iff {s : Sources} {c : Correlation} (h : readPresent fs s = .ok c) {i : Int}
    {e : Excerpt} :
    (i, e) ∈ c.sources ↔ ∃ e', (i, e') ∈ s ∧ isPresent fs e' = true ∧ load fs e' = .ok e := by
  obtain ⟨sources, hs, hc⟩ := bind_eq_ok.1 h
  cases hc
  rw [mem_iff_of_mapM hs]
  constructor
  · rintro ⟨⟨k, e'⟩, hmem, hx⟩
    obtain ⟨e'', hload, hx⟩ := map_eq_ok.1 hx
    cases hx
    obtain ⟨hmem, hpresent⟩ := List.mem_filter.1 hmem
    exact ⟨e', hmem, hpresent, hload⟩
  · rintro ⟨e', hmem, hpresent, hload⟩
    exact ⟨(i, e'), List.mem_filter.2 ⟨hmem, hpresent⟩, map_eq_ok.2 ⟨e, hload, rfl⟩⟩

/-- The missing paths are those of the others. -/
theorem mem_missing_iff {s : Sources} {c : Correlation} (h : readPresent fs s = .ok c)
    {path : Text} :
    path ∈ c.missing ↔ ∃ i e, (i, e) ∈ s ∧ isPresent fs e = false ∧ e.file.path = path := by
  obtain ⟨sources, -, hc⟩ := bind_eq_ok.1 h
  cases hc
  simp [and_assoc]

/-- All is read if each file that is there is. -/
theorem exists_readPresent_iff {s : Sources} :
    (∃ c, readPresent fs s = .ok c) ↔
      ∀ i e, (i, e) ∈ s → isPresent fs e = true → ∃ e', load fs e = .ok e' := by
  have hmap : (∃ c, readPresent fs s = .ok c) ↔
      ∃ sources, (s.filter fun e => isPresent fs e.2).mapM (fun (i, e) =>
        (load fs e).map fun e => (i, e)) = .ok sources :=
    ⟨fun ⟨_, h⟩ => (bind_eq_ok.1 h).imp fun _ h => h.1,
      fun ⟨_, h⟩ => ⟨_, bind_eq_ok.2 ⟨_, h, rfl⟩⟩⟩
  rw [hmap, exists_mapM_eq_ok_iff]
  constructor
  · intro h i e hmem hpresent
    obtain ⟨b, hb⟩ := h (i, e) (List.mem_filter.2 ⟨hmem, hpresent⟩)
    obtain ⟨e', hload, -⟩ := map_eq_ok.1 hb
    exact ⟨e', hload⟩
  · rintro h ⟨i, e⟩ hmem
    obtain ⟨hmem, hpresent⟩ := List.mem_filter.1 hmem
    obtain ⟨e', hload⟩ := h i e hmem hpresent
    exact ⟨(i, e'), map_eq_ok.2 ⟨e', hload, rfl⟩⟩

theorem nodup_sources {s : Sources} {c : Correlation} (hs : (s.map Prod.fst).Nodup)
    (h : readPresent fs s = .ok c) : (c.sources.map Prod.fst).Nodup := by
  obtain ⟨sources, hsources, hc⟩ := bind_eq_ok.1 h
  cases hc
  have hkeys : sources.map Prod.fst = (s.filter fun e => isPresent fs e.2).map Prod.fst := by
    refine map_of_mapM (fun a b hb => ?_) hsources
    obtain ⟨_, -, rfl⟩ := map_eq_ok.1 hb
    rfl
  rw [hkeys]
  exact (List.filter_sublist.map _).nodup hs

/-! ## Correlating -/

/-- What is read holds the lines asked for. -/
theorem holds_of_load {file : FileEntry} {refs : List Int} {e : Excerpt}
    (h : load fs (unread file (fillGaps limit refs)) = .ok e) : Holds fs limit file.path refs e := by
  obtain ⟨text, hread, hlines, rfl⟩ := load_eq_ok_iff.1 h
  refine ⟨rfl, by simp [Function.comp_def], text, hread, fun l hl => ?_⟩
  dsimp only
  rw [List.lookup_graph _ hl]
  by_cases hz : l = 0
  · subst hz
    exact .inl ⟨rfl, rfl⟩
  · have hline := hlines l hl hz
    obtain ⟨raw, hraw, htext⟩ := lineText_eq_of_hasLine hline
    exact .inr ⟨hline.1, raw, hraw, by rw [htext]⟩

theorem pathOf?_eq_some_iff {i : Int} {path : Text} :
    pathOf? fs root base table i = some path ↔
      ∃ file, table.get? i = some file ∧ resolvedPath fs root base file.path = path :=
  Option.map_eq_some_iff

/-- Correlating that returns loads what is claimed of it. -/
theorem loads_of_readPresent {asked : Sources} {c : Correlation}
    (hasked : wanted limit f table = .ok asked)
    (h : readPresent fs (settled fs root base asked) = .ok c) :
    Loads fs root base limit f table c := by
  have hlookup : ∀ {i e}, c.sources.lookup i = some e ↔ (i, e) ∈ c.sources :=
    lookup_eq_some_iff_mem (nodup_sources (nodup_settled hasked) h)
  refine ⟨fun r hr => ?_, fun i e he => ?_, fun path hpath => ?_⟩
  · obtain ⟨file, hfile⟩ := exists_wanted_iff.1 ⟨asked, hasked⟩ r hr
    refine ⟨_, pathOf?_eq_some_iff.2 ⟨file, hfile, rfl⟩, ?_⟩
    have hmem := mem_settled fs root base hasked hr hfile
    split
    · rename_i hfinds
      obtain ⟨e, hload⟩ := exists_readPresent_iff.1 ⟨c, h⟩ _ _ hmem hfinds
      exact ⟨e, hlookup.2 ((mem_sources_iff h).2 ⟨_, hmem, hfinds, hload⟩), holds_of_load hload⟩
    · rename_i hfinds
      refine ⟨Option.eq_none_iff_forall_ne_some.2 fun e he => ?_,
        (mem_missing_iff h).2 ⟨_, _, hmem, Bool.eq_false_iff.2 hfinds, rfl⟩⟩
      obtain ⟨e', hmem', hpresent, -⟩ := (mem_sources_iff h).1 (hlookup.1 he)
      obtain ⟨-, file', hfile', rfl⟩ := (mem_settled_iff hasked).1 hmem'
      cases hfile.symm.trans hfile'
      exact hfinds hpresent
  · obtain ⟨e', hmem, -, -⟩ := (mem_sources_iff h).1 he
    exact ((mem_settled_iff hasked).1 hmem).1
  · obtain ⟨i, e, hmem, hpresent, rfl⟩ := (mem_missing_iff h).1 hpath
    obtain ⟨⟨r, hr, rfl⟩, file, hfile, rfl⟩ := (mem_settled_iff hasked).1 hmem
    exact ⟨hpresent, r, hr, pathOf?_eq_some_iff.2 ⟨file, hfile, rfl⟩⟩

/-- All is read unless a line is outside its file: those in gaps do not count. -/
theorem readPresent_ok_iff {asked : Sources} (hasked : wanted limit f table = .ok asked)
    (hcan : CanRead fs root base f table) :
    (∃ c, readPresent fs (settled fs root base asked) = .ok c) ↔
      ¬ RefersOutside fs root base f table := by
  rw [exists_readPresent_iff]
  constructor
  · rintro h ⟨r, hr, hz, path, text, hpath, hfinds, hread, hline⟩
    obtain ⟨file, hfile, rfl⟩ := pathOf?_eq_some_iff.1 hpath
    have hmem := mem_settled fs root base hasked hr hfile
    obtain ⟨e, hload⟩ := h _ _ hmem hfinds
    obtain ⟨text', hread', hlines, -⟩ := load_eq_ok_iff.1 hload
    cases hread.symm.trans hread'
    exact hline (hlines _ (mem_fillGaps_iff.2 (.inl (mem_linesOf_iff.2 ⟨r, hr, rfl, rfl⟩))) hz)
  · intro h i e hmem hpresent
    obtain ⟨⟨r, hr, rfl⟩, file, hfile, rfl⟩ := (mem_settled_iff hasked).1 hmem
    obtain ⟨path, hpath, hread⟩ := hcan r hr
    obtain ⟨file', hfile', rfl⟩ := pathOf?_eq_some_iff.1 hpath
    cases hfile.symm.trans hfile'
    obtain ⟨text, hread⟩ := hread hpresent
    -- The lines of gaps are in the file as soon as those referred to are.
    refine ⟨_, load_eq_ok_iff.2 ⟨text, hread, hasLine_fillGaps fun l hl hz => ?_, rfl⟩⟩
    obtain ⟨r', hr', hsame, rfl⟩ := mem_linesOf_iff.1 hl
    exact Classical.byContradiction fun hline =>
      h ⟨r', hr', hz, _, text, hsame ▸ hpath, hpresent, hread, hline⟩

/-- Reading fails for a file that is there and cannot be read, or does not have a wanted line. -/
theorem readPresent_fails {asked : Sources} {err : Failure}
    (hasked : wanted limit f table = .ok asked)
    (h : readPresent fs (settled fs root base asked) = .error err) :
    ∃ r ∈ referencedLocs f, ∃ path, pathOf? fs root base table r.file = some path ∧
      fs.findsNormal path = true ∧
        (fs.readText path = .error err ∨ ∃ text, fs.readText path = .ok text ∧
          ∃ l ∈ fillGaps limit (linesOf f r.file), l ≠ 0 ∧ ¬ HasLine (lines text) l ∧
            err = .missingLine path l) := by
  rcases bind_eq_error.1 h with h | ⟨_, -, h⟩
  · obtain ⟨⟨i, e⟩, hmem, hx⟩ := mapM_eq_error h
    obtain ⟨hmem, hpresent⟩ := List.mem_filter.1 hmem
    obtain ⟨⟨r, hr, rfl⟩, file, hfile, rfl⟩ := (mem_settled_iff hasked).1 hmem
    have hload := map_eq_error.1 hx
    refine ⟨r, hr, _, pathOf?_eq_some_iff.2 ⟨file, hfile, rfl⟩, hpresent, ?_⟩
    cases hread : fs.readText (resolvedPath fs root base file.path) with
    | ok text => exact .inr ⟨text, rfl, load_error hread hload⟩
    | error e =>
      rw [load] at hload
      dsimp only [unread] at hload
      rw [hread] at hload
      cases hload
      exact .inl rfl
  · cases h

/-- What can be read fails only for a line. -/
theorem readPresent_error {asked : Sources} {err : Failure}
    (hasked : wanted limit f table = .ok asked) (hcan : CanRead fs root base f table)
    (h : readPresent fs (settled fs root base asked) = .error err) :
    ∃ path l, err = .missingLine path l := by
  obtain ⟨r, hr, path, hpath, hpresent, hread | ⟨text, -, l, -, -, -, he⟩⟩ :=
    readPresent_fails hasked h
  · obtain ⟨path', hpath', hcan⟩ := hcan r hr
    cases hpath.symm.trans hpath'
    obtain ⟨text, htext⟩ := hcan hpresent
    cases hread.symm.trans htext
  · exact ⟨path, l, he⟩

/-- **What correlating loads.** If it returns, each file that the function refers to is read or
missing, as its resolved path is there or not, and holds the lines asked for. If the files are in
the table and can be read where they are there, it fails for a line if and only if the function
refers to one outside its file, and returns otherwise. -/
theorem ofFunction_loads (fs : FileSystem) (sysroot : Action Text) (limit : Int)
    (base : Option Text) (f : Function) (table : FileTable) (j : Journal) {root : Text}
    (hroot : (sysroot.outcome j).1 = .ok root) :
    (∀ c, ((ofFunction fs sysroot limit base f table).outcome j).1 = .ok c →
      Loads fs root base limit f table c) ∧
    (CanRead fs root base f table →
      ((∃ path l, ((ofFunction fs sysroot limit base f table).outcome j).1 =
          .error (.missingLine path l)) ↔ RefersOutside fs root base f table) ∧
      ((∃ c, ((ofFunction fs sysroot limit base f table).outcome j).1 = .ok c) ↔
        ¬ RefersOutside fs root base f table)) := by
  rw [outcome_ofFunction hroot]
  refine ⟨fun c h => ?_, fun hcan => ?_⟩
  · obtain ⟨asked, hasked, hread⟩ := bind_eq_ok.1 h
    exact loads_of_readPresent hasked hread
  · have hcovered : ∀ r ∈ referencedLocs f, ∃ file, table.get? r.file = some file := fun r hr => by
      obtain ⟨path, hpath, -⟩ := hcan r hr
      obtain ⟨file, hfile, -⟩ := pathOf?_eq_some_iff.1 hpath
      exact ⟨file, hfile⟩
    obtain ⟨asked, hasked⟩ := exists_wanted_iff.2 hcovered
    have hok := readPresent_ok_iff hasked hcan
    rw [hasked, ok_bind]
    refine ⟨⟨fun ⟨path, l, herr⟩ => ?_, fun hout => ?_⟩, hok⟩
    · refine Classical.byContradiction fun hn => ?_
      obtain ⟨c, hc⟩ := hok.2 hn
      cases herr.symm.trans hc
    · cases hr : readPresent fs (settled fs root base asked) with
      | ok c => exact absurd hout (hok.1 ⟨c, hr⟩)
      | error err =>
        obtain ⟨path, l, rfl⟩ := readPresent_error hasked hcan hr
        exact ⟨path, l, rfl⟩

/-- A file below the base directory is read, line 0 and a gap included, one of the standard library
is missing below the sysroot, and a line behind the last is outside. -/
theorem ofFunction_loads_below_base :
    let fs : FileSystem := ⟨"/".toList,
      [(["w".toList, "lib.rs".toList], encode "a\n b\nc\nd\n".toList)], [], []⟩
    let base := some "/w".toList
    let table : FileTable :=
      [(1, ⟨"lib.rs".toList, 1⟩), (2, ⟨"/x/library/core/num.rs".toList, 2⟩)]
    let inside : Function :=
      ⟨[], none, none, [.loc ⟨1, 0, 0⟩, .loc ⟨1, 2, 0⟩, .loc ⟨1, 4, 0⟩, .loc ⟨2, 7, 0⟩]⟩
    let outside : Function := ⟨[], none, none, [.loc ⟨1, 5, 0⟩]⟩
    let sysroot : Action Text := pure "/r".toList
    let run := fun f => ((ofFunction fs sysroot 5 base f table).outcome .empty).1
    ((sysroot.outcome .empty).1 = .ok "/r".toList ∧ CanRead fs "/r".toList base inside table ∧
      CanRead fs "/r".toList base outside table ∧
      RefersOutside fs "/r".toList base outside table) ∧
    (∃ c, run inside = .ok c ∧ Loads fs "/r".toList base 5 inside table c) ∧
    ∃ path l, run outside = .error (.missingLine path l) := by
  intro fs base table inside outside sysroot run
  have hroot : (sysroot.outcome .empty).1 = .ok "/r".toList := rfl
  have hfirst : pathOf? fs "/r".toList base table 1 = some "/w/lib.rs".toList := by decide +kernel
  have hsecond : pathOf? fs "/r".toList base table 2 =
      some "/r/lib/rustlib/src/rust/library/core/num.rs".toList := by decide +kernel
  have hread : fs.readText "/w/lib.rs".toList = .ok "a\n b\nc\nd\n".toList :=
    toOption_eq_some_iff.1 (by decide +kernel)
  have hfinds : fs.findsNormal "/w/lib.rs".toList = true := by decide +kernel
  have habsent : fs.findsNormal "/r/lib/rustlib/src/rust/library/core/num.rs".toList = false := by
    decide +kernel
  have hlength : (lines "a\n b\nc\nd\n".toList).length = 4 := by decide +kernel
  have hone : ∀ r : Loc, r.file = 1 → ∃ path, pathOf? fs "/r".toList base table r.file = some path ∧
      (fs.findsNormal path = true → ∃ text, fs.readText path = .ok text) :=
    fun r hr => ⟨_, hr ▸ hfirst, fun _ => ⟨_, hread⟩⟩
  have hinside : CanRead fs "/r".toList base inside table :=
    List.forall_mem_cons.2 ⟨hone _ rfl, List.forall_mem_cons.2 ⟨hone _ rfl,
      List.forall_mem_cons.2 ⟨hone _ rfl, List.forall_mem_singleton.2
        ⟨_, hsecond, fun h => absurd (habsent.symm.trans h) (by decide)⟩⟩⟩⟩
  have houtside : CanRead fs "/r".toList base outside table :=
    List.forall_mem_singleton.2 (hone _ rfl)
  have hout : RefersOutside fs "/r".toList base outside table :=
    ⟨⟨1, 5, 0⟩, List.mem_singleton_self _, by decide, _, _, hfirst, hfinds, hread, fun h =>
      absurd h.2 (by rw [hlength]; decide)⟩
  have hlocs : ∀ r ∈ referencedLocs inside,
      r.file = 2 ∨ r.file = 1 ∧ (r.line = 0 ∨ 1 ≤ r.line ∧ r.line ≤ 4) := by decide +kernel
  have hin : ¬ RefersOutside fs "/r".toList base inside table := by
    rintro ⟨r, hr, hz, path, text, hpath, hfound, htext, hline⟩
    rcases hlocs r hr with hfile | ⟨hfile, hrange⟩
    · rw [hfile, hsecond] at hpath
      cases hpath
      exact absurd (habsent.symm.trans hfound) (by decide)
    · rw [hfile, hfirst] at hpath
      cases hpath
      cases hread.symm.trans htext
      have hrange := hrange.resolve_left hz
      exact hline ⟨hrange.1, by rw [hlength]; exact hrange.2⟩
  obtain ⟨hloads, hends⟩ := ofFunction_loads fs sysroot 5 base inside table .empty hroot
  obtain ⟨c, hc⟩ := (hends hinside).2.2 hin
  have hfails := ((ofFunction_loads fs sysroot 5 base outside table .empty hroot).2 houtside).1
  exact ⟨⟨hroot, hinside, houtside, hout⟩, ⟨c, hc, hloads c hc⟩, hfails.2 hout⟩

end Correlation

end AsmLens
