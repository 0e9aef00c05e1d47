import AsmLens.Proofs.Workspace.Tree
import AsmLens.Session

/-!
# The files of a build

The files of the kind looked for are collected below a directory: each that a file or a link there
leads to whose own name has the right ending, once, in the order of places. So the tree alone
determines them, and with them where a search finds a function first
(`Toolchain.outputFiles_of_tree`).
-/

namespace AsmLens

open Text

namespace FileSystem

/-- Below a directory stands a file or link, with a name of its own that ends in `suffix`, that
leads to the file at `p`. -/
def Offers (fs : FileSystem) (directory suffix : Text) (p : Place) : Prop :=
  fs.findsDirectory directory = true ∧
    ∃ above name, suffix <:+ name ∧ fs.LeadsTo (fs.place directory ++ above ++ [name]) p

/-- What stands below a directory is what its place and further names lead to. -/
theorem mem_below_iff {fs : FileSystem} {directory : Text} {q : Place} :
    q ∈ fs.below directory ↔ fs.findsDirectory directory = true ∧
      q ∈ fs.files.map Prod.fst ++ fs.links.map Prod.fst ∧
        ∃ above name, q = fs.place directory ++ above ++ [name] := by
  rw [below]
  split
  · rename_i hdir
    have hbelow : (fs.place directory <+: q ∧ (fs.place directory).length < q.length) ↔
        ∃ above name, q = fs.place directory ++ above ++ [name] := by
      constructor
      · rintro ⟨⟨rest, rfl⟩, hlt⟩
        have hrest : rest ≠ [] := by
          rintro rfl
          simp at hlt
        refine ⟨rest.dropLast, rest.getLast hrest, ?_⟩
        rw [List.append_assoc, List.dropLast_concat_getLast]
      · rintro ⟨above, name, rfl⟩
        rw [List.append_assoc]
        exact ⟨List.prefix_append _ _, by simp⟩
    rw [List.mem_filter, Bool.and_eq_true, decide_eq_true_eq, List.isPrefixOf_iff_prefix, hbelow]
    simp [hdir]
  · rename_i hdir
    simp [hdir]

end FileSystem

namespace Toolchain

variable {t : Toolchain} {directory : Text} {fs' : FileSystem}

/-- The tools find their files in another file system. -/
def withFiles (t : Toolchain) (fs : FileSystem) : Toolchain :=
  { t with workspace := { t.workspace with files := fs } }

/-- Where the entries with the right ending lead, as they are listed. -/
def targets (t : Toolchain) (directory : Text) : List Place :=
  ((t.workspace.files.below directory).filter fun p =>
    (p.getLast?.map (endsWith t.suffix)).getD false).map t.workspace.files.follow

theorem collect_eq_sorted :
    t.collect directory = (t.targets directory).eraseDups.mergeSort Place.le := rfl

/-- The files a directory offers, links followed. -/
theorem mem_targets_iff (tree : t.workspace.files.IsTree) {p : Place} :
    p ∈ t.targets directory ↔ t.workspace.files.Offers directory t.suffix p := by
  have hname : ∀ (above : Place) (name : Text),
      ((above ++ [name]).getLast?.map (endsWith t.suffix)).getD false = true ↔
        t.suffix <:+ name := by
    intro above name
    rw [List.getLast?_concat]
    exact List.isSuffixOf_iff_suffix
  simp only [targets, List.mem_map, List.mem_filter, FileSystem.mem_below_iff, FileSystem.Offers,
    tree.leadsTo_iff]
  constructor
  · rintro ⟨q, ⟨⟨hdir, hq, above, name, rfl⟩, hsuffix⟩, hp⟩
    exact ⟨hdir, above, name, (hname _ name).1 hsuffix, hq, hp⟩
  · rintro ⟨hdir, above, name, hsuffix, hq, hp⟩
    exact ⟨_, ⟨⟨hdir, hq, above, name, rfl⟩, (hname _ name).2 hsuffix⟩, hp⟩

theorem mem_collect_iff {p : Place} : p ∈ t.collect directory ↔ p ∈ t.targets directory := by
  rw [collect_eq_sorted, List.mem_mergeSort, List.mem_eraseDups]

/-- They are collected in their order, each once. -/
theorem rising_collect (t : Toolchain) (directory : Text) :
    (t.collect directory).Pairwise Place.Precedes :=
  rising_mergeSort_eraseDups Place.le_trans Place.le_total Place.precedes_of_le _

/-- There is but one rising list of where the entries lead. -/
theorem collect_eq {ps : List Place} (hm : ∀ p, p ∈ t.targets directory ↔ p ∈ ps)
    (hps : ps.Pairwise Place.Precedes) : t.collect directory = ps :=
  eq_of_rising Place.Precedes.asymm (rising_collect t directory) hps fun p =>
    mem_collect_iff.trans (hm p)

/-- The order in which things are listed does not matter. -/
theorem collect_relisted (tree : t.workspace.files.IsTree) (h : t.workspace.files.Relisted fs') :
    (t.withFiles fs').collect directory = t.collect directory := by
  have hsuffix : (t.withFiles fs').suffix = t.suffix := rfl
  have hfiles : (t.withFiles fs').workspace.files = fs' := rfl
  refine collect_eq (fun p => ?_) (rising_collect t directory)
  rw [mem_collect_iff]
  simp only [targets, List.mem_map, List.mem_filter, hsuffix, hfiles, h.mem_below_iff tree,
    h.follow_eq tree]

theorem outputFiles_eq_ok_iff {d : Path.Normal} {ps : List Place} :
    t.outputFiles d = .ok ps ↔ t.collect d.toText = ps ∧ ps ≠ [] := by
  unfold outputFiles
  split
  · rename_i h
    rw [h]
    constructor
    · rintro ⟨⟩
    · rintro ⟨rfl, hne⟩
      exact absurd rfl hne
  · rename_i h
    rw [Except.ok.injEq]
    constructor
    · rintro rfl
      exact ⟨rfl, fun hnil => h hnil⟩
    · exact fun hps => hps.1

theorem outputFiles_eq_error_iff {d : Path.Normal} {e : Failure} :
    t.outputFiles d = .error e ↔
      t.collect d.toText = [] ∧ e = .noOutputFiles t.suffix d.toText := by
  unfold outputFiles
  split
  · rename_i h
    rw [Except.error.injEq, eq_comm, h, eq_self, true_and]
  · rename_i h
    constructor
    · rintro ⟨⟩
    · exact fun hnil => absurd hnil.1 h

/-! ## Other orders -/

section

variable (tree : t.workspace.files.IsTree) (h : t.workspace.files.Relisted fs')

include tree h

theorem outputFiles_relisted (d : Path.Normal) :
    (t.withFiles fs').outputFiles d = t.outputFiles d := by
  unfold outputFiles
  rw [collect_relisted tree h]
  rfl

theorem manifest?_relisted : (t.withFiles fs').manifest? = t.manifest? := by
  have hdir : (t.withFiles fs').workspace.files.findsDirectory =
      t.workspace.files.findsDirectory := h.findsDirectory_eq tree
  unfold manifest?
  rw [hdir]
  rfl

theorem directory_relisted : (t.withFiles fs').directory = t.directory := by
  have hcwd : (t.withFiles fs').workspace.files.cwd = t.workspace.files.cwd := h.cwd
  rw [directory, directory, manifest?_relisted tree h, hcwd]

/-- A build does not depend on how the files are listed. -/
theorem build_relisted : (t.withFiles fs').build = t.build := by
  have hwords : (t.withFiles fs').buildWords = t.buildWords := by
    unfold buildWords manifestWords
    rw [manifest?_relisted tree h]
    rfl
  rw [build, build, hwords]
  rfl

theorem targetDirectory_relisted : (t.withFiles fs').targetDirectory = t.targetDirectory := by
  have hwords : (t.withFiles fs').metadataWords = t.metadataWords := by
    unfold metadataWords manifestWords
    rw [manifest?_relisted tree h]
    rfl
  rw [targetDirectory, targetDirectory, hwords]
  rfl

omit tree h in
/-- Correlating looks up paths and reads texts, and nothing else of the files. -/
theorem ofFunction_congr {fs fs' : FileSystem} (hfinds : fs'.finds = fs.finds)
    (hnormal : fs'.findsNormal = fs.findsNormal) (hread : fs'.readText = fs.readText) :
    Correlation.ofFunction fs' = Correlation.ofFunction fs := by
  have hresolve : Correlation.resolveAll fs' = Correlation.resolveAll fs := by
    unfold Correlation.resolveAll Correlation.resolve
    rw [hfinds]
  have hdisplaced : Correlation.displaced? fs' = Correlation.displaced? fs := by
    unfold Correlation.displaced?
    rw [hfinds]
  have hcorrected : Correlation.corrected fs' = Correlation.corrected fs := by
    unfold Correlation.corrected Correlation.needsSysroot Correlation.correctAll
      Correlation.correct
    rw [hdisplaced]
  have hall : Correlation.readAll fs' = Correlation.readAll fs := by
    unfold Correlation.readAll Correlation.isPresent Correlation.load
    rw [hnormal, hread]
  unfold Correlation.ofFunction
  rw [hresolve, hcorrected, hall]

theorem showFunction_relisted :
    Session.showFunction (t.withFiles fs') = Session.showFunction t := by
  have hcorrelate : Correlation.ofFunction (t.withFiles fs').workspace.files =
      Correlation.ofFunction t.workspace.files :=
    ofFunction_congr (h.finds_eq tree) (h.findsNormal_eq tree) (h.readText_eq tree)
  have hprint : Session.printListing (t.withFiles fs') = Session.printListing t := by
    have hcwd : (t.withFiles fs').workspace.files.cwd = t.workspace.files.cwd := h.cwd
    unfold Session.printListing
    rw [hcwd]
    rfl
  funext f
  rw [Session.showFunction, Session.showFunction, directory_relisted tree h, hcorrelate, hprint]
  rfl

/-- In whatever order the tree is listed, the whole inspection goes the same way. -/
theorem inspect_relisted : Session.inspect (t.withFiles fs') = Session.inspect t := by
  have hread : (t.withFiles fs').workspace.files.readText = t.workspace.files.readText :=
    h.readText_eq tree
  have houtput : (t.withFiles fs').outputFiles = t.outputFiles :=
    funext (outputFiles_relisted tree h)
  rw [Session.inspect, Session.inspect, build_relisted tree h, targetDirectory_relisted tree h,
    houtput, hread, showFunction_relisted tree h]
  rfl

end

/-- **The tree determines the files of a build.** They are files, they rise strictly in the order of
places, and they are those that files and links with the right ending lead to below the directory;
the only failure is that there is none. In whatever order the tree is listed, the files are the same
and read the same, and so is all that a search in them shows. -/
theorem outputFiles_of_tree (t : Toolchain) (d : Path.Normal) (tree : t.workspace.files.IsTree) :
    let fs := t.workspace.files
    (∀ ps, t.outputFiles d = .ok ps →
      ps.Pairwise Place.Precedes ∧ (∀ p ∈ ps, p ∈ fs.files.map Prod.fst) ∧
      ∀ p, p ∈ ps ↔ fs.Offers d.toText t.suffix p) ∧
    (∀ e, t.outputFiles d = .error e ↔
      (¬ ∃ p, fs.Offers d.toText t.suffix p) ∧ e = .noOutputFiles t.suffix d.toText) ∧
    ∀ fs', fs.Relisted fs' →
      (t.withFiles fs').outputFiles d = t.outputFiles d ∧
      (∀ p : Place, fs'.readText p.toText = fs.readText p.toText) ∧
      Session.inspect (t.withFiles fs') = Session.inspect t := by
  intro fs
  refine ⟨fun ps h => ?_, fun e => ?_, fun fs' h => ⟨?_, fun p => ?_, ?_⟩⟩
  · obtain ⟨rfl, -⟩ := outputFiles_eq_ok_iff.1 h
    have hoffers : ∀ p, p ∈ t.collect d.toText ↔ fs.Offers d.toText t.suffix p := fun p =>
      mem_collect_iff.trans (mem_targets_iff tree)
    refine ⟨rising_collect t _, fun p hp => ?_, hoffers⟩
    obtain ⟨-, above, name, -, hleads⟩ := (hoffers p).1 hp
    exact tree.isFile_of_leadsTo hleads
  · rw [outputFiles_eq_error_iff, List.eq_nil_iff_forall_not_mem]
    simp only [mem_collect_iff, mem_targets_iff tree, not_exists, fs]
  · exact outputFiles_relisted tree h d
  · rw [h.readText_eq tree]
  · exact inspect_relisted tree h

/-- Two links to one file, one of them beside it, a link out of the directory to a file with another
ending, and one to a file with the ending from a name without it. By names `a` comes before `a-1`,
by their text the paths below them come the other way round. Where there is no file, collecting
fails. -/
theorem outputFiles_of_tree_with_links :
    let place := fun names : List String => names.map String.toList
    let fs : FileSystem :=
      ⟨"/w".toList, [(place ["t", "a-1", "x.s"], []), (place ["t", "a", "y.s"], []),
        (place ["t", "lib.rs"], []), (place ["o", "z.txt"], [])], [place ["n"]],
        [(place ["t", "z.s"], place ["o", "z.txt"]),
          (place ["t", "b", "m.s"], place ["t", "a", "y.s"]),
          (place ["t", "a", "k.s"], place ["t", "a", "y.s"]),
          (place ["t", "n.txt"], place ["t", "a-1", "x.s"])]⟩
    let fs' := { fs with files := fs.files.reverse, links := fs.links.reverse }
    let w : Workspace :=
      ⟨fs, "/h".toList, [], ⟨[], []⟩, [], fun _ _ => .finished 0 [] [], fun _ => .interrupted,
        fun _ => 1⟩
    let t : Toolchain := ⟨w, Options.standard, Target.ofTriple w.host none⟩
    let d := Path.Normal.ofText "/t".toList
    let none := Path.Normal.ofText "/n".toList
    let ps := [place ["o", "z.txt"], place ["t", "a", "y.s"], place ["t", "a-1", "x.s"]]
    (fs.IsTree ∧ fs.Relisted fs' ∧ t.outputFiles d = .ok ps) ∧
    (ps.Pairwise Place.Precedes ∧ (∀ p ∈ ps, p ∈ fs.files.map Prod.fst) ∧
      ∀ p, p ∈ ps ↔ fs.Offers d.toText t.suffix p) ∧
    (t.withFiles fs').outputFiles d = .ok ps ∧
    (t.outputFiles none = .error (.noOutputFiles ".s".toList "/n".toList) ∧
      ¬ ∃ p, fs.Offers none.toText t.suffix p) := by
  intro place fs fs' w t d none ps
  have tree : fs.IsTree := ⟨by decide +kernel, by decide +kernel⟩
  have hrelisted : fs.Relisted fs' :=
    ⟨rfl, List.reverse_perm _, .refl _, List.reverse_perm _⟩
  have hrising : ps.Pairwise Place.Precedes :=
    (show ps.Pairwise fun p q => Place.le p q = true ∧ p ≠ q by decide +kernel).imp fun h =>
      Place.precedes_of_le h.1 h.2
  have hsame : (∀ p ∈ t.targets d.toText, p ∈ ps) ∧ ∀ p ∈ ps, p ∈ t.targets d.toText := by
    decide +kernel
  have hempty : t.targets none.toText = [] := by decide +kernel
  have hps : t.outputFiles d = .ok ps :=
    outputFiles_eq_ok_iff.2
      ⟨collect_eq (fun p => ⟨hsame.1 p, hsame.2 p⟩) hrising, List.cons_ne_nil _ _⟩
  have hnone : t.outputFiles none = .error (.noOutputFiles ".s".toList "/n".toList) :=
    outputFiles_eq_error_iff.2 ⟨collect_eq (fun p => hempty ▸ Iff.rfl) .nil, by decide +kernel⟩
  obtain ⟨hok, -, hother⟩ := outputFiles_of_tree t d tree
  refine ⟨⟨tree, hrelisted, hps⟩, hok ps hps, (hother fs' hrelisted).1.trans hps, hnone, ?_⟩
  exact ((outputFiles_of_tree t none tree).2.1 _).1 hnone |>.1

end Toolchain

end AsmLens
