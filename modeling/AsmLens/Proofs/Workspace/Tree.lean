import AsmLens.Proofs.Text.Ordering
import AsmLens.Workspace.FileSystem

/-!
# Trees of files

Places are ordered name by name from the root (`Place.Precedes`). In a tree each place is listed
once and links lead to files (`FileSystem.IsTree`), so it does not matter in which order files,
directories and links are listed: what stands at a place, where a path leads and what is read under
it stay the same (`FileSystem.Relisted`).
-/

namespace AsmLens

open Text

namespace Place

/-- `p` comes before `q` in the order of places, name by name. -/
def Precedes (p q : Place) : Prop :=
  List.Lex Text.Precedes p q

theorem precedes_cons_iff {a b : Text} {p q : Place} :
    Precedes (a :: p) (b :: q) ↔ Text.Precedes a b ∨ a = b ∧ Precedes p q :=
  List.cons_lex_cons_iff

/-- The comparison of places is their order, name by name. -/
theorem le_eq_true_iff {p q : Place} : le p q = true ↔ p = q ∨ Precedes p q := by
  induction p generalizing q with
  | nil =>
    cases q with
    | nil => simp [le]
    | cons b q => simp [le, Precedes]
  | cons a p ih =>
    cases q with
    | nil => simp [le, Precedes]
    | cons b q =>
      rw [le, precedes_cons_iff, List.cons.injEq]
      split
      · rename_i hab
        subst hab
        have hirrefl : ¬ Text.Precedes a a := fun h => h.asymm h
        simp [ih, hirrefl]
      · rename_i hab
        rw [Text.le_eq_true_iff, or_iff_right hab]
        simp [hab]

theorem precedes_of_le {p q : Place} (h : le p q = true) (hne : p ≠ q) : Precedes p q :=
  (le_eq_true_iff.1 h).resolve_left hne

theorem le_trans (p q r : Place) (h : le p q = true) (h' : le q r = true) : le p r = true := by
  have htrans : ∀ {a b c : Text}, Text.Precedes a b → Text.Precedes b c → Text.Precedes a c :=
    fun h h' => List.lex_trans Nat.lt_trans h h'
  rw [le_eq_true_iff] at *
  rcases h with rfl | h
  · exact h'
  · rcases h' with rfl | h'
    · exact .inr h
    · exact .inr (List.lex_trans htrans h h')

theorem le_total (p q : Place) : (le p q || le q p) = true := by
  induction p generalizing q with
  | nil => rfl
  | cons a p ih =>
    cases q with
    | nil => rfl
    | cons b q =>
      by_cases hab : a = b
      · rw [le, le, if_pos hab, if_pos hab.symm]
        exact ih q
      · rw [le, le, if_neg hab, if_neg (Ne.symm hab)]
        exact Text.le_total a b

theorem Precedes.asymm {p q : Place} (h : Precedes p q) : ¬ Precedes q p :=
  List.lex_asymm (fun h => h.asymm) h

end Place

namespace FileSystem

variable {fs fs' : FileSystem}

/-- Each place is listed once, and links lead to files. -/
structure IsTree (fs : FileSystem) : Prop where
  once : (fs.files.map Prod.fst ++ fs.links.map Prod.fst).Nodup
  toFiles : ∀ l ∈ fs.links, l.2 ∈ fs.files.map Prod.fst

/-- The same tree, with its files, directories and links listed in any order. -/
structure Relisted (fs fs' : FileSystem) : Prop where
  cwd : fs'.cwd = fs.cwd
  files : fs'.files.Perm fs.files
  directories : fs'.directories.Perm fs.directories
  links : fs'.links.Perm fs.links

/-- A file, or a link to one, and the place of the file. -/
inductive LeadsTo (fs : FileSystem) : Place → Place → Prop where
  | file {p : Place} (h : p ∈ fs.files.map Prod.fst) : LeadsTo fs p p
  | link {q p : Place} (h : (q, p) ∈ fs.links) : LeadsTo fs q p

theorem IsTree.files_nodup (h : fs.IsTree) : (fs.files.map Prod.fst).Nodup :=
  (List.nodup_append.1 h.once).1

theorem IsTree.links_nodup (h : fs.IsTree) : (fs.links.map Prod.fst).Nodup :=
  (List.nodup_append.1 h.once).2.1

/-- What is listed leads where following leads. -/
theorem IsTree.leadsTo_iff (h : fs.IsTree) {q p : Place} :
    fs.LeadsTo q p ↔
      q ∈ fs.files.map Prod.fst ++ fs.links.map Prod.fst ∧ fs.follow q = p := by
  have hlink : ∀ {q p}, fs.links.lookup q = some p ↔ (q, p) ∈ fs.links :=
    lookup_eq_some_iff_mem h.links_nodup
  constructor
  · rintro (hfile | hl)
    · -- A file's place is no link's, so following stays there.
      have hnone : fs.links.lookup q = none := by
        refine Option.eq_none_iff_forall_ne_some.2 fun r hr => ?_
        have hq : q ∈ fs.links.map Prod.fst := List.mem_map.2 ⟨_, hlink.1 hr, rfl⟩
        exact (List.nodup_append.1 h.once).2.2 q hfile q hq rfl
      exact ⟨List.mem_append_left _ hfile, by rw [follow, hnone]; rfl⟩
    · exact ⟨List.mem_append_right _ (List.mem_map.2 ⟨_, hl, rfl⟩), by rw [follow, hlink.2 hl]; rfl⟩
  · rintro ⟨hq, rfl⟩
    cases hfollow : fs.links.lookup q with
    | some p => exact .link (by rw [follow, hfollow]; exact hlink.1 hfollow)
    | none =>
      have hnot : q ∉ fs.links.map Prod.fst := by
        intro hmem
        obtain ⟨l, hl, rfl⟩ := List.mem_map.1 hmem
        cases hfollow.symm.trans (hlink.2 hl)
      rw [follow, hfollow]
      exact .file ((List.mem_append.1 hq).resolve_right hnot)

/-- Whatever is listed leads to a file. -/
theorem IsTree.isFile_of_leadsTo (h : fs.IsTree) {q p : Place} (hq : fs.LeadsTo q p) :
    p ∈ fs.files.map Prod.fst := by
  cases hq with
  | file hp => exact hp
  | link hl => exact h.toFiles _ hl

/-! ## Other orders -/

namespace Relisted

/-- A place does not depend on how the files are listed. -/
theorem place_eq (h : fs.Relisted fs') : fs'.place = fs.place := by
  unfold place
  rw [h.cwd]

theorem follow_eq (h : fs.Relisted fs') (tree : fs.IsTree) : fs'.follow = fs.follow := by
  funext p
  rw [follow, follow, lookup_eq_of_perm tree.links_nodup h.links]

theorem isDirectory_eq (h : fs.Relisted fs') : fs'.isDirectory = fs.isDirectory := by
  funext p
  rw [isDirectory, isDirectory, h.cwd, h.place_eq, h.directories.any_eq, h.files.any_eq,
    h.links.any_eq]

theorem entry?_eq (h : fs.Relisted fs') (tree : fs.IsTree) : fs'.entry? = fs.entry? := by
  funext p
  unfold entry?
  rw [lookup_eq_of_perm tree.files_nodup h.files, h.isDirectory_eq]

theorem resolve_eq (h : fs.Relisted fs') (tree : fs.IsTree) : fs'.resolve = fs.resolve := by
  funext path
  rw [resolve, resolve, h.follow_eq tree, h.place_eq]

theorem find?_eq (h : fs.Relisted fs') (tree : fs.IsTree) : fs'.find? = fs.find? := by
  funext path
  rw [find?, find?, h.entry?_eq tree, h.resolve_eq tree]

theorem finds_eq (h : fs.Relisted fs') (tree : fs.IsTree) : fs'.finds = fs.finds := by
  funext path
  rw [finds, finds, h.find?_eq tree]

theorem findsNormal_eq (h : fs.Relisted fs') (tree : fs.IsTree) :
    fs'.findsNormal = fs.findsNormal := by
  funext path
  rw [findsNormal, findsNormal, h.finds_eq tree]

theorem findsDirectory_eq (h : fs.Relisted fs') (tree : fs.IsTree) :
    fs'.findsDirectory = fs.findsDirectory := by
  funext path
  rw [findsDirectory, findsDirectory, h.find?_eq tree]

/-- What is read does not depend on the order. -/
theorem readText_eq (h : fs.Relisted fs') (tree : fs.IsTree) : fs'.readText = fs.readText := by
  funext path
  rw [readText, readText, read, read, h.entry?_eq tree, h.resolve_eq tree]

/-- Neither does what is listed below a directory. -/
theorem mem_below_iff (h : fs.Relisted fs') (tree : fs.IsTree) {path : Text} {q : Place} :
    q ∈ fs'.below path ↔ q ∈ fs.below path := by
  have hlisted : (fs'.files.map Prod.fst ++ fs'.links.map Prod.fst).Perm
      (fs.files.map Prod.fst ++ fs.links.map Prod.fst) :=
    (h.files.map _).append (h.links.map _)
  rw [below, below, h.findsDirectory_eq tree, h.place_eq]
  split
  · exact (hlisted.filter _).mem_iff
  · exact Iff.rfl

end Relisted

end FileSystem

end AsmLens
