import AsmLens.Proofs.Assembly.LineByLine

/-!
# The own file of a function

A body declares the file that its function lies in among the files of inlined code. Its own one is
the first that may be it: no location precedes its declaration, or the first location of the body
has its index (`IsOwnFile`). Reading adopts this file and no other, and it fails for a location
exactly if that is the first of the body and the first file declared before it has another index
(`DisagreesAt`).

The invariant is `Settles`: the file of a progress is the first that suits the location known where
it is declared, and as long as the file is open none did.
-/

namespace AsmLens

open Text

namespace Body

/-- `f` is declared in `ss` right behind the statements `before`. -/
def DeclaredBehind (before ss : List Statement) (f : FileEntry) : Prop :=
  ∃ after, ss = before ++ .file f :: after

/-- A file that is declared behind the statements `before` may be the function's own: no location
precedes it, or the function's location `own` has its index. -/
def MayBeOwn (own : Option Loc) (before : List Statement) (f : FileEntry) : Prop :=
  firstLoc before = none ∨ ∃ l, own = some l ∧ l.file = f.index

/-- The first file of `ss` that may be the own one of a function with location `own`. -/
def IsOwnFile (own : Option Loc) (ss : List Statement) (f : FileEntry) : Prop :=
  ∃ before, DeclaredBehind before ss f ∧ MayBeOwn own before f ∧
    ∀ earlier g, DeclaredBehind earlier before g → ¬ MayBeOwn own earlier g

/-- Nothing fails before line `k`, which holds the first location of the body, and the first file
declared before it has an index that the location has not. -/
inductive DisagreesAt (t : Target) (rename : Text → Text) (id : Text) (lines : List Text)
    (k : Nat) : Text → Int → Prop where
  | intro {raw : Text} {g : Function} {l : Loc} {file : FileEntry} (line : lines[k]? = some raw)
      (accepted : read t id rename (lines.take k) = .ok g)
      (located : Fragment.directive? t (parts t raw).node = .ok (some (.loc l)))
      (first : g.locations = []) (declared : g.declaredFiles.head? = some file)
      (differs : file.index ≠ l.file) : DisagreesAt t rename id lines k (trim raw) file.index

/-! ## What suits a progress -/

/-- The file has the index of the first location in `before`, if there is one. -/
def Suits (before : List Statement) (f : FileEntry) : Prop :=
  ∀ l, firstLoc before = some l → l.file = f.index

/-- No file of `ss` suits the statements before it. -/
def NoneSuits (ss : List Statement) : Prop :=
  ∀ before f, DeclaredBehind before ss f → ¬ Suits before f

/-- The file of `p` is the first in `ss` that suits, and if it is open none does. -/
structure Settles (p : Progress) (ss : List Statement) : Prop where
  adopted : ∀ f, p.file = some f → ∃ before, DeclaredBehind before ss f ∧ Suits before f ∧
    NoneSuits before
  undecided : p.file = none → NoneSuits ss

section

variable {before ss : List Statement} {s : Statement} {f : FileEntry} {p p' : Progress}

theorem not_declaredBehind_nil : ¬ DeclaredBehind before [] f := by
  rintro ⟨after, h⟩
  simp at h

/-- A declaration is the last statement, or one before it. -/
theorem declaredBehind_snoc_iff :
    DeclaredBehind before (ss ++ [s]) f ↔
      (before = ss ∧ s = .file f) ∨ DeclaredBehind before ss f := by
  constructor
  · rintro ⟨after, h⟩
    rcases List.eq_nil_or_concat after with rfl | ⟨after, s', rfl⟩
    · obtain ⟨rfl, hs⟩ := List.append_inj' h rfl
      exact .inl ⟨rfl, (List.cons.inj hs).1⟩
    · rw [List.concat_eq_append, ← List.cons_append, ← List.append_assoc] at h
      exact .inr ⟨after, (List.append_inj' h rfl).1⟩
  · rintro (⟨rfl, rfl⟩ | ⟨after, rfl⟩)
    · exact ⟨[], rfl⟩
    · exact ⟨after ++ [s], by rw [List.append_assoc, List.cons_append]⟩

theorem noneSuits_nil : NoneSuits [] :=
  fun _ _ h => absurd h not_declaredBehind_nil

/-- Nothing suits yet, if the last statement does not. -/
theorem noneSuits_snoc (h : NoneSuits ss) (hs : ∀ f, s = .file f → ¬ Suits ss f) :
    NoneSuits (ss ++ [s]) := by
  intro before f hd
  rcases declaredBehind_snoc_iff.1 hd with ⟨rfl, hf⟩ | hd
  · exact hs f hf
  · exact h before f hd

theorem settles_start : Settles .start [] where
  adopted _ h := by cases h
  undecided _ := noneSuits_nil

namespace Progress

/-- A declared file is adopted if there is none yet and the first location is not in another. -/
theorem file_adopt (p : Progress) (f : FileEntry) :
    (p.adopt f).file =
      if p.file.isNone && p.loc.all (·.file == f.index) then some f else p.file := by
  rw [adopt]
  split <;> rfl

theorem file_of_locate {l : Loc} (h : p.locate l = .ok p') : p'.file = p.file := by
  unfold locate at h
  split at h
  · cases h
    rfl
  · cases h
    rfl
  · split at h
    · cases h
      rfl
    · cases h

/-- A file is adopted by the location known so far. -/
theorem all_loc_iff (ht : Tracks p ss) :
    p.loc.all (·.file == f.index) = true ↔ Suits ss f := by
  rw [ht.loc, Option.all_eq_true, Suits]
  simp

end Progress

namespace Settles

/-- A file that is adopted stays. -/
theorem snoc_of_file (h : Settles p ss) (hf : p'.file = p.file) (hs : p.file = none →
    ∀ f, s = .file f → ¬ Suits ss f) : Settles p' (ss ++ [s]) where
  adopted f hf' := by
    obtain ⟨before, hd, hsuits⟩ := h.adopted f (hf.symm.trans hf')
    exact ⟨before, declaredBehind_snoc_iff.2 (.inr hd), hsuits⟩
  undecided hn := noneSuits_snoc (h.undecided (hf.symm.trans hn)) (hs (hf.symm.trans hn))

theorem snoc (h : Settles p ss) (ht : Tracks p ss) (ha : p.accept s = .ok p') :
    Settles p' (ss ++ [s]) := by
  cases s with
  | file f =>
    cases ha
    by_cases hadopts : (p.file.isNone && p.loc.all (·.file == f.index)) = true
    · have hfile : (p.adopt f).file = some f := by rw [Progress.file_adopt, if_pos hadopts]
      rw [Bool.and_eq_true, Option.isNone_iff_eq_none] at hadopts
      refine ⟨fun g hg => ?_, fun hn => by cases hfile.symm.trans hn⟩
      cases hfile.symm.trans hg
      exact ⟨ss, declaredBehind_snoc_iff.2 (.inl ⟨rfl, rfl⟩),
        (Progress.all_loc_iff ht).1 hadopts.2, h.undecided hadopts.1⟩
    · refine h.snoc_of_file (by rw [Progress.file_adopt, if_neg hadopts]) fun hn g hg hsuits => ?_
      cases hg
      exact hadopts (by rw [hn, (Progress.all_loc_iff ht).2 hsuits]; rfl)
  | loc l => exact h.snoc_of_file (Progress.file_of_locate ha) fun _ f hf => by cases hf
  | label | directive | instruction | comment =>
    cases ha
    exact h.snoc_of_file rfl fun _ f hf => by cases hf

end Settles

/-- A run settles the file by its statements. -/
theorem Reads.settles {ss' : List Statement} (h : Reads p ss' p') (ht : Tracks p ss)
    (hs : Settles p ss) : Settles p' (ss ++ ss') := by
  induction h generalizing ss with
  | nil => rwa [List.append_nil]
  | cons _ accepts _ ih =>
    have := ih (ht.snoc accepts) (hs.snoc ht accepts)
    rwa [List.append_assoc, List.singleton_append] at this

/-! ## The function that is read -/

/-- Where the own location is the first one of the body, a file may be the own one if it suits. -/
theorem mayBeOwn_iff (hd : DeclaredBehind before ss f) :
    MayBeOwn (firstLoc ss) before f ↔ Suits before f := by
  obtain ⟨after, rfl⟩ := hd
  have hfirst : firstLoc (before ++ .file f :: after) = (firstLoc before).or (firstLoc after) := by
    rw [firstLoc, List.filterMap_append, List.head?_append]
    rfl
  rw [MayBeOwn, hfirst, Suits]
  cases firstLoc before with
  | none => simp
  | some l => simp

theorem DeclaredBehind.trans {earlier : List Statement} {g : FileEntry}
    (h : DeclaredBehind earlier before g) (hd : DeclaredBehind before ss f) :
    DeclaredBehind earlier ss g := by
  obtain ⟨after, rfl⟩ := h
  obtain ⟨after', rfl⟩ := hd
  exact ⟨after ++ .file f :: after', by rw [List.append_assoc, List.cons_append]⟩

/-- Of two declarations one comes before the other, unless they are the same. -/
theorem DeclaredBehind.total {before' : List Statement} {g : FileEntry}
    (h : DeclaredBehind before ss f) (h' : DeclaredBehind before' ss g) :
    f = g ∨ DeclaredBehind before before' f ∨ DeclaredBehind before' before g := by
  obtain ⟨after, rfl⟩ := h
  obtain ⟨after', h'⟩ := h'
  rcases List.append_eq_append_iff.1 h' with ⟨x, rfl, hx⟩ | ⟨x, rfl, hx⟩
  · cases x with
    | nil =>
      cases hx
      exact .inl rfl
    | cons s x =>
      cases hx
      exact .inr (.inl ⟨x, rfl⟩)
  · cases x with
    | nil =>
      cases hx
      exact .inl rfl
    | cons s x =>
      cases hx
      exact .inr (.inr ⟨x, rfl⟩)

/-- The own file is the first declared one that suits. -/
theorem isOwnFile_iff : IsOwnFile (firstLoc ss) ss f ↔
    ∃ before, DeclaredBehind before ss f ∧ Suits before f ∧ NoneSuits before := by
  refine exists_congr fun before => and_congr_right fun hd => and_congr (mayBeOwn_iff hd) ?_
  exact forall_congr' fun earlier => forall_congr' fun g => forall_congr' fun he =>
    not_congr (mayBeOwn_iff (he.trans hd))

namespace Settles

/-- The adopted file is the own file. -/
theorem file_eq_some_iff (h : Settles p ss) : p.file = some f ↔ IsOwnFile (firstLoc ss) ss f := by
  rw [isOwnFile_iff]
  constructor
  · exact h.adopted f
  · rintro ⟨before, hd, hsuits, hnone⟩
    cases hp : p.file with
    | none => exact absurd hsuits (h.undecided hp before f hd)
    | some g =>
      obtain ⟨before', hd', hsuits', hnone'⟩ := h.adopted g hp
      rcases hd.total hd' with rfl | he | he
      · rfl
      · exact absurd hsuits (hnone' before f he)
      · exact absurd hsuits' (hnone before' g he)

/-- No file is adopted if and only if none may be the own one. -/
theorem file_eq_none_iff (h : Settles p ss) :
    p.file = none ↔ ∀ before f, DeclaredBehind before ss f → ¬ MayBeOwn (firstLoc ss) before f := by
  constructor
  · intro hp before f hd
    rw [mayBeOwn_iff hd]
    exact h.undecided hp before f hd
  · intro hno
    cases hp : p.file with
    | none => rfl
    | some f =>
      obtain ⟨before, hd, hsuits, -⟩ := h.adopted f hp
      exact absurd ((mayBeOwn_iff hd).2 hsuits) (hno before f hd)

/-- Where no location is set, every file suits, so the first one is adopted. -/
theorem file_eq_head? (h : Settles p ss) (hloc : ss.filterMap Statement.setLoc? = []) :
    p.file = (ss.filterMap Statement.declaredFile?).head? := by
  have hnone : ∀ before, before <+: ss → NoneSuits before →
      before.filterMap Statement.declaredFile? = [] := by
    rintro before ⟨after, rfl⟩ hno
    rw [List.filterMap_append, List.append_eq_nil_iff] at hloc
    rw [List.filterMap_eq_nil_iff]
    intro s hs
    cases s with
    | file f =>
      obtain ⟨earlier, later, rfl⟩ := List.append_of_mem hs
      refine absurd (fun l hl => ?_) (hno earlier f ⟨later, rfl⟩)
      rw [List.filterMap_append, List.append_eq_nil_iff] at hloc
      rw [firstLoc, hloc.1.1] at hl
      cases hl
    | label | loc | directive | instruction | comment => rfl
  cases hp : p.file with
  | none => rw [hnone ss List.prefix_rfl (h.undecided hp), List.head?_nil]
  | some f =>
    obtain ⟨before, ⟨after, rfl⟩, -, hno⟩ := h.adopted f hp
    rw [List.filterMap_append, hnone before (List.prefix_append _ _) hno]
    rfl

end Settles

end

section

variable {t : Target} {id : Text} {rename : Text → Text} {lines : List Text} {f : Function}

/-- A function that is read has the file that its statements settle, and its first location. -/
theorem settles_of_read (h : read t id rename lines = .ok f) :
    ∃ p, p.file = f.file ∧ f.loc = firstLoc f.statements ∧ Settles p f.statements := by
  obtain ⟨p, ss, hr, rfl⟩ := read_eq_ok_iff.1 h
  exact ⟨p, rfl, (tracks_of_readLines hr).loc,
    (reads_of_readLines hr).settles tracks_start settles_start⟩

/-- The file of a function is its own file. -/
theorem ownFile_of_read (h : read t id rename lines = .ok f) (file : FileEntry) :
    f.file = some file ↔ IsOwnFile f.loc f.statements file := by
  obtain ⟨p, hp, hloc, hs⟩ := settles_of_read h
  rw [← hp, hloc]
  exact hs.file_eq_some_iff

/-- A function without a file declares none that may be its own. -/
theorem noOwnFile_of_read (h : read t id rename lines = .ok f) :
    f.file = none ↔
      ∀ before g, DeclaredBehind before f.statements g → ¬ MayBeOwn f.loc before g := by
  obtain ⟨p, hp, hloc, hs⟩ := settles_of_read h
  rw [← hp, hloc]
  exact hs.file_eq_none_iff

/-- The own file has the index of the own location. -/
theorem agree_of_read (h : read t id rename lines = .ok f) {file : FileEntry} {l : Loc}
    (hfile : f.file = some file) (hloc : f.loc = some l) : l.file = file.index := by
  obtain ⟨p, hp, hl, ha⟩ := accounts_of_read h
  exact (ha.agree file l (hp.trans hfile) (hl.trans hloc)).symm

theorem node_ne_nil_of_directive? {raw : Text} {s : Statement}
    (h : Fragment.directive? t (parts t raw).node = .ok (some s)) : (parts t raw).node ≠ [] := by
  intro hn
  have hdot := (Fragment.directive?_cases h).1
  rw [hn] at hdot
  cases hdot

/-- Reading fails for a location exactly where the first of the body disagrees with the first file
before it. -/
theorem read_mismatch_iff {name line : Text} {k : Nat} {index : Int} :
    read t id rename lines = .error (.locationMismatch name k line index) ↔
      name = id ∧ DisagreesAt t rename id lines k line index := by
  have hfile : ∀ {g : Function}, read t id rename (lines.take k) = .ok g → g.locations = [] →
      g.file = g.declaredFiles.head? := by
    intro g hg hnone
    obtain ⟨p, hp, -, hs⟩ := settles_of_read hg
    rw [← hp]
    exact hs.file_eq_head? hnone
  have hfails : read t id rename lines = .error (.locationMismatch name k line index) ↔
      FailsAt t rename id lines k (.locationMismatch name k line index) :=
    ⟨fun h => read_fails_at_iff.1 ⟨h, rfl⟩, fun h => (read_fails_at_iff.2 h).1⟩
  constructor
  · intro h
    cases hfails.1 h with
    | mismatch hline hg hn hc hfirst hadopted hne =>
      exact ⟨rfl, .intro hline hg (Fragment.classify_loc_iff.1 hc) hfirst
        ((hfile hg hfirst).symm.trans hadopted) hne⟩
  · rintro ⟨rfl, hline, hg, hc, hfirst, hdeclared, hne⟩
    exact hfails.2 (.mismatch hline hg (node_ne_nil_of_directive? hc)
      (Fragment.classify_loc_iff.2 hc) hfirst ((hfile hg hfirst).trans hdeclared) hne)

end

/-- **The own file and location of a function.** A function that is read has the first location of
its body, and the first file of its body that no location precedes or that has the index of that
location; so the two agree. Reading fails for a location that disagrees with the function's file
exactly where nothing fails before, the location is the first of the body, and the first file
declared before it has another index. -/
theorem read_settles_file (t : Target) (id : Text) (rename : Text → Text) (lines : List Text) :
    (∀ f, read t id rename lines = .ok f →
      f.loc = f.locations.head? ∧
      (∀ file, f.file = some file ↔ IsOwnFile f.loc f.statements file) ∧
      (f.file = none ↔
        ∀ before g, DeclaredBehind before f.statements g → ¬ MayBeOwn f.loc before g) ∧
      ∀ file l, f.file = some file → f.loc = some l → l.file = file.index) ∧
    ∀ name k line index,
      read t id rename lines = .error (.locationMismatch name k line index) ↔
        name = id ∧ DisagreesAt t rename id lines k line index := by
  refine ⟨fun f hf => ⟨loc_of_read hf, ownFile_of_read hf, noOwnFile_of_read hf, ?_⟩,
    fun name k line index => read_mismatch_iff⟩
  intro file l hfile hloc
  exact agree_of_read hf hfile hloc

/-- Inlined code declares a file between the location of a function and its own file, and the first
of two files declared before a location is not the one that the location is in. -/
theorem read_settles_file_behind_inlined :
    let t : Target := ⟨"x86_64-unknown-linux-gnu".toList⟩
    let own : FileEntry := ⟨"a.rs".toList, 2⟩
    let lines := [".loc 2 1 0".toList, ".file 1 \"b.rs\"".toList, ".file 2 \"a.rs\"".toList,
      ".loc 1 9 0".toList, ".file 1 \"b.rs\"".toList]
    let torn := [".file 1 \"b.rs\"".toList, ".file 2 \"a.rs\"".toList, "\t.loc 2 1 0".toList]
    let f : Function := ⟨['f'], some own, some ⟨2, 1, 0⟩,
      [.loc ⟨2, 1, 0⟩, .file ⟨"b.rs".toList, 1⟩, .file own, .loc ⟨1, 9, 0⟩,
        .file ⟨"b.rs".toList, 1⟩]⟩
    (read t ['f'] id lines = .ok f ∧ IsOwnFile f.loc f.statements own ∧
      (2 : Int) = own.index) ∧
    DisagreesAt t id ['f'] torn 2 ".loc 2 1 0".toList 1 ∧
      read t ['f'] id torn = .error (.locationMismatch ['f'] 2 ".loc 2 1 0".toList 1) := by
  intro t own lines torn f
  have hread : read t ['f'] id lines = .ok f := toOption_eq_some_iff.1 (by decide +kernel)
  obtain ⟨-, hown, -, hagree⟩ := (read_settles_file t ['f'] id lines).1 f hread
  have hbefore : read t ['f'] id (torn.take 2) = .ok ⟨['f'], some ⟨"b.rs".toList, 1⟩, none,
      [.file ⟨"b.rs".toList, 1⟩, .file own]⟩ := toOption_eq_some_iff.1 (by decide +kernel)
  have hlocated : Fragment.directive? t (parts t "\t.loc 2 1 0".toList).node =
      .ok (some (.loc ⟨2, 1, 0⟩)) := toOption_eq_some_iff.1 (by decide +kernel)
  have hline : trim "\t.loc 2 1 0".toList = ".loc 2 1 0".toList := by decide
  have hdisagrees : DisagreesAt t id ['f'] torn 2 ".loc 2 1 0".toList 1 := by
    have := DisagreesAt.intro (k := 2) rfl hbefore hlocated rfl rfl (by decide)
    rwa [hline] at this
  exact ⟨⟨hread, (hown own).1 rfl, hagree own _ rfl rfl⟩, hdisagrees,
    ((read_settles_file t ['f'] id torn).2 ['f'] 2 ".loc 2 1 0".toList 1).2 ⟨rfl, hdisagrees⟩⟩

end Body

end AsmLens
