import AsmLens.Listing.Encoding
import AsmLens.Proofs.Listing.SourceLines
import AsmLens.Proofs.Source.Loading

/-!
# The limit of gaps

How far gaps are filled decides which lines are read besides those that the function refers to, and
nothing else. The paths of the files, and with them the question for the sysroot and what is
missing, are told by the table (`paths_of_wanted`). Reading fails only for a line that the function
refers to (`exists_ofFunction_iff`), and where the function refers to, the sources hold what the
files do (`Loads.line?_eq`). So two limits give the same listing or fail both
(`ofFunction_limit`).
-/

namespace AsmLens

open Text Source

namespace Correlation

variable {fs : FileSystem} {root : Text} {base : Option Text} {limit : Int} {f : Function}
  {table : FileTable} {sysroot : Action Text} {j : Journal}

/-- The paths of excerpts, in order. -/
def paths (s : Sources) : List Text :=
  s.map fun p => p.2.file.path

/-- The paths of the files that a function refers to, in order of the first reference. -/
def referencedPaths (f : Function) (table : FileTable) : List Text :=
  (references f).map fun r => ((table.get? r.1).map FileEntry.path).getD []

/-- The text of a line of a file, if the file is there. -/
def textAt? (fs : FileSystem) (path : Text) (l : Int) : Option Text :=
  if fs.findsNormal path then
    (fs.readText path).toOption.bind fun text => lineText (lines text) l
  else none

/-! ## Paths -/

/-- The paths of the excerpts do not depend on the limit. -/
theorem paths_of_wanted {asked : Sources} (h : wanted limit f table = .ok asked) :
    paths asked = referencedPaths f table := by
  refine map_of_mapM (fun r p hp => ?_) h
  dsimp only at hp
  split at hp
  · rename_i file hfile
    cases hp
    rw [hfile]
    rfl
  · cases hp

theorem paths_resolveAll (fs : FileSystem) (base : Option Text) (s : Sources) :
    paths (resolveAll fs base s) = (paths s).map (resolve fs base) := by
  simp [paths, resolveAll, move, Function.comp_def]

theorem paths_correctAll (fs : FileSystem) (root : Text) (s : Sources) :
    paths (correctAll fs root s) = (paths s).map (correct fs root) := by
  simp [paths, correctAll, move, Function.comp_def]

theorem needsSysroot_eq (fs : FileSystem) (s : Sources) :
    needsSysroot fs s = (paths s).any fun path => (displaced? fs path).isSome := by
  rw [needsSysroot, paths, List.any_map]
  rfl

/-- What is missing depends on the paths alone. -/
theorem missing_eq {s : Sources} {c : Correlation} (h : readPresent fs s = .ok c) :
    c.missing = (paths s).filter fun path => !fs.findsNormal path := by
  obtain ⟨sources, -, hc⟩ := bind_eq_ok.1 h
  cases hc
  rw [paths, List.filter_map]
  rfl

/-! ## What is read -/

/-- Filling gaps adds nothing that a file might lack. -/
theorem exists_load_iff {file : FileEntry} {refs : List Int} :
    (∃ e, load fs (unread file (fillGaps limit refs)) = .ok e) ↔
      ∃ text, fs.readText file.path = .ok text ∧
        ∀ l ∈ refs, l ≠ 0 → HasLine (lines text) l := by
  constructor
  · rintro ⟨e, h⟩
    obtain ⟨text, hread, hlines, -⟩ := load_eq_ok_iff.1 h
    exact ⟨text, hread, fun l hl => hlines l (mem_fillGaps_iff.2 (.inl hl))⟩
  · rintro ⟨text, hread, hlines⟩
    exact ⟨_, load_eq_ok_iff.2 ⟨text, hread, hasLine_fillGaps hlines, rfl⟩⟩

/-- Everything is read if the table has the files of all references, and those of them that are
there can be read and have the lines referred to. -/
theorem exists_ofFunction_iff :
    (∃ c, wanted limit f table >>= (fun asked => readPresent fs (settled fs root base asked)) =
        .ok c) ↔
      ∀ r ∈ referencedLocs f, ∃ path, pathOf? fs root base table r.file = some path ∧
        (fs.findsNormal path = true → ∃ text, fs.readText path = .ok text ∧
          ∀ l ∈ linesOf f r.file, l ≠ 0 → HasLine (lines text) l) := by
  constructor
  · rintro ⟨c, hc⟩ r hr
    obtain ⟨asked, hasked, hread⟩ := bind_eq_ok.1 hc
    obtain ⟨file, hfile⟩ := exists_wanted_iff.1 ⟨asked, hasked⟩ r hr
    refine ⟨_, pathOf?_eq_some_iff.2 ⟨file, hfile, rfl⟩, fun hfinds => ?_⟩
    have hmem := mem_settled fs root base hasked hr hfile
    exact exists_load_iff.1 (exists_readPresent_iff.1 ⟨c, hread⟩ _ _ hmem hfinds)
  · intro h
    have hfiles : ∀ r ∈ referencedLocs f, ∃ file, table.get? r.file = some file := by
      intro r hr
      obtain ⟨path, hpath, -⟩ := h r hr
      exact (pathOf?_eq_some_iff.1 hpath).imp fun _ h => h.1
    obtain ⟨asked, hasked⟩ := exists_wanted_iff.2 hfiles
    rw [hasked, ok_bind]
    apply exists_readPresent_iff.2
    intro i e hmem hpresent
    obtain ⟨⟨r, hr, rfl⟩, file, hfile, rfl⟩ := (mem_settled_iff hasked).1 hmem
    obtain ⟨path, hpath, hread⟩ := h r hr
    obtain ⟨file', hfile', rfl⟩ := pathOf?_eq_some_iff.1 hpath
    cases hfile.symm.trans hfile'
    exact exists_load_iff.2 (hread hpresent)

namespace Loads

variable {c : Correlation} {r : Loc} {path : Text}

/-- The sources know the path of a location if the file is there. -/
theorem path?_eq (h : Loads fs root base limit f table c) (hr : r ∈ referencedLocs f)
    (hpath : pathOf? fs root base table r.file = some path) :
    c.sources.path? r = if fs.findsNormal path then some path else none := by
  obtain ⟨path', hpath', hloads⟩ := h.each r hr
  cases hpath.symm.trans hpath'
  rw [Sources.path?]
  split at hloads
  · rename_i hfinds
    obtain ⟨e, he, hholds⟩ := hloads
    rw [he, Option.map_some, hholds.moved, if_pos hfinds]
  · rename_i hfinds
    rw [hloads.1, Option.map_none, if_neg hfinds]

/-- The sources hold the line of a location as it is in the file. -/
theorem line?_eq (h : Loads fs root base limit f table c) (hr : r ∈ referencedLocs f)
    (hpath : pathOf? fs root base table r.file = some path) :
    c.sources.line? r = textAt? fs path r.line := by
  obtain ⟨path', hpath', hloads⟩ := h.each r hr
  cases hpath.symm.trans hpath'
  rw [Sources.line?, textAt?]
  split at hloads
  · rename_i hfinds
    obtain ⟨e, he, hholds⟩ := hloads
    obtain ⟨text, hread, hlines⟩ := hholds.text
    have hmem : r.line ∈ fillGaps limit (linesOf f r.file) :=
      mem_fillGaps_iff.2 (.inl (mem_linesOf_iff.2 ⟨r, hr, rfl, rfl⟩))
    have hline : e.lines.lookup r.line = some (lineText (lines text) r.line) := by
      rcases hlines r.line hmem with ⟨hz, hlookup⟩ | ⟨hone, raw, hraw, hlookup⟩
      · rw [hlookup, lineText, if_neg (by omega)]
      · rw [hlookup, lineText, if_pos hone, hraw, Option.map_some]
    rw [if_pos hfinds, he, hread]
    show (e.lines.lookup r.line).bind id = lineText (lines text) r.line
    rw [hline, Option.bind_some, id]
  · rename_i hfinds
    rw [if_neg hfinds, hloads.1]
    rfl

end Loads

/-- What is loaded with two limits makes the same listing. -/
theorem nodes_of_loads {limit' : Int} {c c' : Correlation}
    (h : Loads fs root base limit f table c) (h' : Loads fs root base limit' f table c') :
    Listing.nodes f c.sources = Listing.nodes f c'.sources := by
  apply Listing.nodes_congr
  intro st hst l hl
  have hr : l ∈ referencedLocs f := by
    refine List.mem_filterMap.2 ⟨st, hst, ?_⟩
    cases st with
    | label | instruction => exact hl
    | file | loc | directive | comment => cases hl
  obtain ⟨path, hpath, -⟩ := h.each l hr
  exact ⟨(h.line?_eq hr hpath).trans (h'.line?_eq hr hpath).symm,
    (h.path?_eq hr hpath).trans (h'.path?_eq hr hpath).symm⟩

/-! ## Correlating -/

/-- If the sysroot is asked for and cannot be told, no limit helps. Otherwise what correlating comes
to is told by the files, with some sysroot, whatever the limit. -/
theorem outcome_ofFunction_cases (fs : FileSystem) (sysroot : Action Text) (base : Option Text)
    (f : Function) (table : FileTable) (j : Journal) :
    (∃ root, ∀ limit, ((ofFunction fs sysroot limit base f table).outcome j).1 =
      wanted limit f table >>= fun asked => readPresent fs (settled fs root base asked)) ∨
    ∀ limit c, ((ofFunction fs sysroot limit base f table).outcome j).1 ≠ .ok c := by
  cases hroot : (sysroot.outcome j).1 with
  | ok root => exact .inl ⟨root, fun limit => outcome_ofFunction hroot⟩
  | error e =>
    -- The paths tell whether the sysroot is needed, and no limit changes them.
    have hneeds : ∀ {limit asked}, wanted limit f table = .ok asked →
        needsSysroot fs (resolveAll fs base asked) =
          ((referencedPaths f table).map (resolve fs base)).any fun path =>
            (displaced? fs path).isSome := by
      intro limit asked hasked
      rw [needsSysroot_eq, paths_resolveAll, paths_of_wanted hasked]
    cases hany : ((referencedPaths f table).map (resolve fs base)).any fun path =>
      (displaced? fs path).isSome with
    | true =>
      refine .inr fun limit c hc => ?_
      rw [ofFunction, Action.outcome_ofExcept_bind] at hc
      obtain ⟨asked, hasked, hc⟩ := bind_eq_ok.1 hc
      rw [corrected, if_pos ((hneeds hasked).trans hany), bind_assoc, Action.outcome_bind] at hc
      rcases hs : sysroot.outcome j with ⟨x, j'⟩
      rw [hs] at hroot hc
      cases hroot
      cases hc
    | false =>
      refine .inl ⟨[], fun limit => ?_⟩
      rw [ofFunction, Action.outcome_ofExcept_bind]
      cases hasked : wanted limit f table with
      | error e => rfl
      | ok asked =>
        have hnot := (hneeds hasked).trans hany
        rw [ok_bind, ok_bind, corrected, if_neg (Bool.eq_false_iff.1 hnot), settled,
          correctAll_eq_self hnot]
        exact outcome_readAll _

/-- **Filling gaps changes nothing that is shown.** Whatever the limits, correlating returns with
both or with none of them, and then the same files are missing and the listing is the same, printed
or as JSON. -/
theorem ofFunction_limit (fs : FileSystem) (sysroot : Action Text) (base : Option Text)
    (f : Function) (table : FileTable) (j : Journal) (limit limit' : Int) :
    ((∃ c, ((ofFunction fs sysroot limit base f table).outcome j).1 = .ok c) ↔
      ∃ c, ((ofFunction fs sysroot limit' base f table).outcome j).1 = .ok c) ∧
    ∀ c c', ((ofFunction fs sysroot limit base f table).outcome j).1 = .ok c →
      ((ofFunction fs sysroot limit' base f table).outcome j).1 = .ok c' →
      c.missing = c'.missing ∧ Listing.nodes f c.sources = Listing.nodes f c'.sources ∧
      (∀ (v : Listing.View) (coloring : Coloring),
        v.print coloring f c.sources = v.print coloring f c'.sources) ∧
      Listing.toJson f c.sources = Listing.toJson f c'.sources := by
  rcases outcome_ofFunction_cases fs sysroot base f table j with ⟨root, hroot⟩ | hfails
  · rw [hroot, hroot]
    refine ⟨exists_ofFunction_iff.trans exists_ofFunction_iff.symm, fun c c' h h' => ?_⟩
    obtain ⟨asked, hasked, hread⟩ := bind_eq_ok.1 h
    obtain ⟨asked', hasked', hread'⟩ := bind_eq_ok.1 h'
    have hmissing : c.missing = c'.missing := by
      rw [missing_eq hread, missing_eq hread', settled, settled, paths_correctAll,
        paths_correctAll, paths_resolveAll, paths_resolveAll, paths_of_wanted hasked,
        paths_of_wanted hasked']
    have hnodes : Listing.nodes f c.sources = Listing.nodes f c'.sources :=
      nodes_of_loads (loads_of_readPresent hasked hread) (loads_of_readPresent hasked' hread')
    refine ⟨hmissing, hnodes, fun v coloring => ?_, ?_⟩
    · rw [Listing.View.print, Listing.View.lines, hnodes]
      rfl
    · rw [Listing.toJson, hnodes]
      rfl
  · refine ⟨⟨?_, ?_⟩, fun c _ hc => absurd hc (hfails limit c)⟩
    · rintro ⟨c, hc⟩
      exact absurd hc (hfails limit c)
    · rintro ⟨c, hc⟩
      exact absurd hc (hfails limit' c)

/-- Lines in a gap are read with one limit and not with another, which the listing does not show. -/
theorem ofFunction_limit_of_gap :
    let fs : FileSystem := ⟨"/".toList,
      [(["w".toList, "a.rs".toList], encode "fn f() \x7b\n 1\n 2\n\x7d\n".toList)], [], []⟩
    let carrying (l : Int) : Statement := .label "x".toList (some ⟨1, l, 0⟩)
    let f : Function :=
      ⟨[], none, none, [carrying 1, .loc ⟨2, 7, 0⟩, carrying 4, carrying 0]⟩
    let table : FileTable := [(1, ⟨"a.rs".toList, 1⟩), (2, ⟨"/b.rs".toList, 2⟩)]
    let run (limit : Int) :=
      ((ofFunction fs (pure []) limit (some "/w".toList) f table).outcome .empty).1
    ∃ c c', run 5 = .ok c ∧ run 3 = .ok c' ∧ c.sources ≠ c'.sources ∧
      c.missing = c'.missing ∧ Listing.nodes f c.sources = Listing.nodes f c'.sources := by
  intro fs carrying f table run
  let asked (keys : List Int) : Sources :=
    [(1, unread ⟨"a.rs".toList, 1⟩ keys), (2, unread ⟨"/b.rs".toList, 2⟩ [7])]
  let read (ls : List (Int × Option Text)) : Correlation :=
    ⟨[(1, ⟨⟨"/w/a.rs".toList, 1⟩, ls⟩)], ["/b.rs".toList]⟩
  have hrefs : references f = [(1, [1, 4, 0]), (2, [7])] := by decide +kernel
  have hfill : ∀ limit, fillGaps limit [1, 4, 0] = fillBetween limit [0, 1, 4] :=
    fillGaps_eq (by simp [or_comm, or_left_comm]) (by decide)
  have hone : ∀ limit, fillGaps limit [7] = [7] := fillGaps_eq (fun _ => Iff.rfl) (by decide)
  have hrun : ∀ limit, run limit =
      readPresent fs (settled fs [] (some "/w".toList) (asked (fillBetween limit [0, 1, 4]))) := by
    intro limit
    have hasked : wanted limit f table = .ok (asked (fillBetween limit [0, 1, 4])) := by
      rw [wanted, hrefs]
      simp only [List.mapM_cons, List.mapM_nil, hfill, hone]
      rfl
    show ((ofFunction fs (pure []) limit _ f table).outcome .empty).1 = _
    rw [outcome_ofFunction rfl, hasked, ok_bind]
  have h : run 5 = .ok (read [(0, none), (1, some "fn f() \x7b".toList), (2, some "1".toList),
      (3, some "2".toList), (4, some "\x7d".toList)]) := by
    rw [hrun]
    exact toOption_eq_some_iff.1 (by decide +kernel)
  have h' : run 3 =
      .ok (read [(0, none), (1, some "fn f() \x7b".toList), (4, some "\x7d".toList)]) := by
    rw [hrun]
    exact toOption_eq_some_iff.1 (by decide +kernel)
  obtain ⟨hmissing, hnodes, -⟩ :=
    (ofFunction_limit fs (pure []) (some "/w".toList) f table .empty 5 3).2 _ _ h h'
  exact ⟨_, _, h, h', by decide +kernel, hmissing, hnodes⟩

end Correlation

end AsmLens
