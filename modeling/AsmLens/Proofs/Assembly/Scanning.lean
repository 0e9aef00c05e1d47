import AsmLens.Assembly.Locator
import AsmLens.Proofs.Assembly.BodyRun
import AsmLens.Proofs.Assembly.FileTable

/-!
# What a scan reads

A scan for a function is told by the lines it takes declarations from. Before the function label
these are all lines, labels included, because no label declares a file (`seek_eq`); after the body
they are the lines up to the first that declares the file looked for (`settleFile_eq`). The table
is in both cases the one that these lines declare in order (`declareLines_eq_ok_iff`), and the body
declares what its lines do (`declaredFiles_of_read`).
-/

namespace AsmLens

open Text

namespace Locator

section

variable (t : Target)

/-- The file that a line declares. -/
def declaration? (line : Text) : Except Failure (Option FileEntry) :=
  Fragment.file? t (Fragments.ofLine t.commentMarkers line).node

/-- The files that lines declare, in order. -/
def declarations (lines : List Text) : List FileEntry :=
  lines.filterMap fun l => (declaration? t l).toOption.join

/-- The table with the declarations of lines, one after another. -/
def declareLines (table : FileTable) (lines : List Text) : Except Failure FileTable :=
  lines.foldlM (declareLine t) table

/-- The line is the label of a function called `path`. -/
def isLabelOf (name : Text → Text) (path line : Text) : Bool :=
  (functionLabel? t line).any fun symbol => name symbol == path

/-- The lines before the first label of a function called `path`. -/
def linesBefore (name : Text → Text) (path : Text) (ls : List Text) : List Text :=
  ls.takeWhile fun l => !isLabelOf t name path l

/-- The lines after the first label of a function called `path`, if it is there. -/
def linesAfter? (name : Text → Text) (path : Text) (ls : List Text) : Option (List Text) :=
  (ls.dropWhile fun l => !isLabelOf t name path l).tail?

/-- The names of the functions whose labels are among lines. -/
def namesOf (name : Text → Text) (lines : List Text) : List Text :=
  (lines.filterMap (functionLabel? t)).map name

/-- The line declares a file under `index`. -/
def declares (index : Int) (line : Text) : Bool :=
  (declaration? t line).toOption.join.any fun f => f.index == index

/-- The lines up to the first that declares a file under `index`, which is included. -/
def throughDeclaration (index : Int) : List Text → List Text
  | [] => []
  | l :: ls => if declares t index l then [l] else l :: throughDeclaration index ls

/-- The lines after a body that are read for the file of its function. -/
def linesForFile (f : Function) (table : FileTable) (after : List Text) : List Text :=
  match f.file, f.loc with
  | none, some l => if (table.get? l.file).isSome then [] else throughDeclaration t l.file after
  | _, _ => []

/-- The file of a function once these lines are read. -/
def settledFile (f : Function) (table : FileTable) : Option FileEntry :=
  match f.file, f.loc with
  | none, some l => table.get? l.file
  | file, _ => file

end

variable {t : Target} {name : Text → Text} {path : Text}

/-! ## Declarations -/

theorem join_toOption_eq_some_iff {α : Type} {x : Except Failure (Option α)} {a : α} :
    x.toOption.join = some a ↔ x = .ok (some a) := by
  rcases x with e | _ | b
  · simp [Except.toOption]
  · simp [Except.toOption]
  · simp [Except.toOption]

/-- A line declares the file it tells of, if it tells of one. -/
theorem declareLine_eq (table : FileTable) (line : Text) :
    declareLine t table line = declaration? t line >>= fun f => table.declareAll f.toList := by
  rw [declareLine, declaration?]
  refine congrArg _ (funext fun f => ?_)
  cases f with
  | none => rfl
  | some f =>
    rw [Option.toList_some, FileTable.declareAll_cons]
    show table.declare f = _
    cases table.declare f <;> rfl

theorem declareLines_cons (table : FileTable) (line : Text) (ls : List Text) :
    declareLines t table (line :: ls) =
      declareLine t table line >>= fun table => declareLines t table ls := by
  rw [declareLines, List.foldlM_cons]
  rfl

/-- Lines declare a table if each can be read and their files do not conflict. -/
theorem declareLines_eq_ok_iff {table table' : FileTable} {ls : List Text} :
    declareLines t table ls = .ok table' ↔
      (∀ l ∈ ls, ∃ f, declaration? t l = .ok f) ∧
        table.declareAll (declarations t ls) = .ok table' := by
  induction ls generalizing table with
  | nil => simp [declareLines, declarations, FileTable.declareAll]
  | cons l ls ih =>
    rw [declareLines_cons, declareLine_eq]
    cases hl : declaration? t l with
    | error e => simp [hl]
    | ok f =>
      have hd : declarations t (l :: ls) = f.toList ++ declarations t ls := by
        rw [declarations, List.filterMap_cons, hl]
        cases f <;> rfl
      rw [ok_bind, hd, FileTable.declareAll_append, List.forall_mem_cons, bind_eq_ok, bind_eq_ok]
      simp only [hl, ih]
      constructor
      · rintro ⟨table₁, h₁, hr, h₂⟩
        exact ⟨⟨⟨f, rfl⟩, hr⟩, table₁, h₁, h₂⟩
      · rintro ⟨⟨-, hr⟩, table₁, h₁, h₂⟩
        exact ⟨table₁, h₁, hr, h₂⟩

/-! ## Before the label -/

theorem labelPrefix_cons (t : Target) : ∃ w, t.labelPrefix = '_' :: w := by
  unfold Target.labelPrefix
  split
  · exact ⟨_, rfl⟩
  · exact ⟨_, rfl⟩

/-- A function label declares no file. -/
theorem declaration?_of_functionLabel? {line symbol : Text}
    (h : functionLabel? t line = some symbol) : declaration? t line = .ok none := by
  unfold functionLabel? at h
  split at h
  · rename_i hs
    obtain ⟨w, hw⟩ := labelPrefix_cons t
    obtain ⟨r, rfl⟩ := List.isPrefixOf_iff_prefix.1 hs
    apply Classical.byContradiction
    intro hn
    obtain ⟨i, v, vs, hwords⟩ := Fragment.words_of_file? hn
    obtain ⟨d, hd⟩ := Fragment.fileDirective_cons t
    have hp := Fragments.node_begins t.commentMarkers (t.labelPrefix ++ r)
    rw [hw, List.cons_append] at hp hwords
    obtain ⟨v, hv⟩ := first_word_of_begins (by decide) hp hwords
    rw [hd] at hv
    cases (List.cons.inj hv).1
  · cases h

/-- A label declares nothing. -/
theorem declareLine_of_functionLabel? {line symbol : Text}
    (h : functionLabel? t line = some symbol) (table : FileTable) :
    declareLine t table line = .ok table := by
  rw [declareLine_eq, declaration?_of_functionLabel? h]
  rfl

/-- The label of a function is that of a symbol with its name. -/
theorem isLabelOf_eq_true_iff {line : Text} :
    isLabelOf t name path line = true ↔
      ∃ symbol, functionLabel? t line = some symbol ∧ name symbol = path := by
  simp [isLabelOf, Option.any_eq_true]

theorem linesBefore_cons_of_not {line : Text} {ls : List Text}
    (h : isLabelOf t name path line = false) :
    linesBefore t name path (line :: ls) = line :: linesBefore t name path ls :=
  List.takeWhile_cons_of_pos (by simp [h])

theorem linesAfter?_cons_of_not {line : Text} {ls : List Text}
    (h : isLabelOf t name path line = false) :
    linesAfter? t name path (line :: ls) = linesAfter? t name path ls := by
  rw [linesAfter?, List.dropWhile_cons_of_pos (by simp [h]), linesAfter?]

/-- Seeking declares the lines before the label and notes the names of their functions. -/
theorem seek_eq (table : FileTable) (ls : List Text) :
    seek t name path table ls =
      (declareLines t table (linesBefore t name path ls)).map fun table' =>
        ⟨namesOf t name (linesBefore t name path ls),
          (linesAfter? t name path ls).map fun rest => (table', rest)⟩ := by
  induction ls generalizing table with
  | nil => rfl
  | cons line ls ih =>
    unfold seek
    cases hf : functionLabel? t line with
    | none =>
      have hn : isLabelOf t name path line = false := by simp [isLabelOf, hf]
      rw [linesBefore_cons_of_not hn, linesAfter?_cons_of_not hn, declareLines_cons]
      have hnames : ∀ ls, namesOf t name (line :: ls) = namesOf t name ls := by
        intro ls
        rw [namesOf, List.filterMap_cons_none hf, namesOf]
      rw [hnames]
      cases declareLine t table line with
      | error e => rfl
      | ok table₁ => exact ih table₁
    | some symbol =>
      simp only
      by_cases hp : name symbol = path
      · have hy : isLabelOf t name path line = true :=
          isLabelOf_eq_true_iff.2 ⟨symbol, hf, hp⟩
        rw [if_pos hp, linesBefore, List.takeWhile_cons_of_neg (by simp [hy]), linesAfter?,
          List.dropWhile_cons_of_neg (by simp [hy])]
        rfl
      · have hn : isLabelOf t name path line = false := by simp [isLabelOf, hf, hp]
        have hnames : ∀ ls, namesOf t name (line :: ls) = name symbol :: namesOf t name ls := by
          intro ls
          rw [namesOf, List.filterMap_cons_some hf, List.map_cons, namesOf]
        rw [if_neg hp, ih, linesBefore_cons_of_not hn, linesAfter?_cons_of_not hn, hnames,
          declareLines_cons, declareLine_of_functionLabel? hf, ok_bind]
        cases declareLines t table (linesBefore t name path ls) <;> rfl

/-! ## After the body -/

/-- A line declares an index that has no file yet exactly if the index has one afterwards. -/
theorem isSome_get?_of_declareLine {table table' : FileTable} {line : Text} {index : Int}
    (hn : table.get? index = none) (h : declareLine t table line = .ok table') :
    (table'.get? index).isSome = declares t index line := by
  rw [declareLine_eq] at h
  obtain ⟨f, hf, h⟩ := bind_eq_ok.1 h
  rw [declares, hf]
  cases f with
  | none =>
    cases h
    rw [hn]
    rfl
  | some f =>
    rw [Option.toList_some, FileTable.declareAll_cons] at h
    obtain ⟨table₁, hdeclare, he⟩ := bind_eq_ok.1 h
    cases he
    exact FileTable.isSome_get?_of_declare hn hdeclare

/-- A file that is known is not looked for. -/
theorem resolve_of_get? {table : FileTable} {index : Int} {f : FileEntry}
    (h : table.get? index = some f) (ls : List Text) :
    resolve t index table ls = .ok (table, some f) := by
  cases ls with
  | nil => rw [resolve, h]; rfl
  | cons line ls => rw [resolve, h]; rfl

/-- Resolving an index declares the lines up to the one that declares it. -/
theorem resolve_eq {table : FileTable} {index : Int} (hn : table.get? index = none)
    (ls : List Text) :
    resolve t index table ls =
      (declareLines t table (throughDeclaration t index ls)).map fun table' =>
        (table', table'.get? index) := by
  induction ls generalizing table with
  | nil => rfl
  | cons line ls ih =>
    rw [resolve, hn]
    simp only
    cases hd : declareLine t table line with
    | error e =>
      unfold throughDeclaration
      split
      · rw [declareLines_cons, hd]
        rfl
      · rw [declareLines_cons, hd]
        rfl
    | ok table₁ =>
      have hs := isSome_get?_of_declareLine hn hd
      rw [ok_bind, throughDeclaration]
      by_cases hc : declares t index line = true
      · obtain ⟨f, hf⟩ := Option.isSome_iff_exists.1 (hs.trans hc)
        rw [if_pos hc, declareLines_cons, hd, ok_bind, resolve_of_get? hf]
        simp [declareLines, hf]
      · rw [if_neg hc, declareLines_cons, hd, ok_bind]
        refine ih (Option.not_isSome_iff_eq_none.1 ?_)
        rw [hs]
        exact hc

/-- The file of a function is settled by declaring lines of the rest up to its declaration. -/
theorem settleFile_eq (f : Function) (table : FileTable) (after : List Text) :
    settleFile t f table after =
      (declareLines t table (linesForFile t f table after)).map fun table' =>
        (table', settledFile f table') := by
  rw [settleFile, linesForFile]
  rcases hf : f.file with _ | file
  · rcases hl : f.loc with _ | l
    · simp [declareLines, settledFile, hf, hl]
    · have hset : ∀ table', settledFile f table' = table'.get? l.file := by
        intro table'
        rw [settledFile, hf, hl]
      simp only [hset]
      cases hg : table.get? l.file with
      | none =>
        rw [resolve_eq hg]
        rfl
      | some g =>
        rw [resolve_of_get? hg, ← hg]
        simp [declareLines, hg]
  · simp [declareLines, settledFile, hf]

theorem mem_throughDeclaration {index : Int} {after : List Text} :
    ∀ l ∈ throughDeclaration t index after, l ∈ after := by
  induction after with
  | nil => exact fun l hl => hl
  | cons x xs ih =>
    intro l hl
    unfold throughDeclaration at hl
    split at hl
    · rw [List.mem_singleton.1 hl]
      exact List.mem_cons_self
    · rcases List.mem_cons.1 hl with rfl | hl
      · exact List.mem_cons_self
      · exact List.mem_cons_of_mem _ (ih l hl)

theorem mem_linesForFile (f : Function) (table : FileTable) (after : List Text) :
    ∀ l ∈ linesForFile t f table after, l ∈ after := by
  intro l hl
  unfold linesForFile at hl
  split at hl
  · split at hl
    · cases hl
    · exact mem_throughDeclaration l hl
  · cases hl

/-- The file of a function comes from its body or from the table. -/
theorem settledFile_cases {f : Function} {table : FileTable} {g : FileEntry}
    (h : settledFile f table = some g) :
    f.file = some g ∨ f.file = none ∧ ∃ l, f.loc = some l ∧ table.get? l.file = some g := by
  unfold settledFile at h
  split at h
  · rename_i l hf hl
    exact .inr ⟨hf, l, hl, h⟩
  · exact .inl h

/-! ## A whole scan -/

/-- The table is complete if and only if the files of the body fit in and every location has one. -/
theorem coverLocations_eq_ok_iff {f : Function} {table : FileTable} {r : Found} :
    coverLocations f table = .ok r ↔
      ∃ table', table.declareAll (f.file.toList ++ f.declaredFiles) = .ok table' ∧
        (∀ l ∈ f.locations, l.file ∈ table'.indices) ∧ r = ⟨f, table'⟩ := by
  rw [coverLocations, bind_eq_ok]
  refine exists_congr fun table' => and_congr_right fun _ => ?_
  have hm : ((f.locations.map Loc.file).filter fun i => !table'.indices.contains i).isEmpty = true
      ↔ ∀ l ∈ f.locations, l.file ∈ table'.indices := by
    simp [List.isEmpty_iff, List.filter_eq_nil_iff]
  by_cases h : ∀ l ∈ f.locations, l.file ∈ table'.indices
  · simp only [hm.2 h, if_true, pure_eq_ok, Except.ok.injEq]
    exact ⟨fun he => ⟨h, he.symm⟩, fun he => he.2.symm⟩
  · simp only [mt hm.1 h]
    exact ⟨fun he => absurd he (by simp), fun he => absurd he.1 h⟩

/-- A function is completed if and only if its body is read, its file settled and its table
complete. -/
theorem complete_eq_ok_iff {table : FileTable} {rest : List Text} {r : Found} :
    complete t name path table rest = .ok r ↔
      ∃ f table₁, Body.read t path name (bodyLines t rest) = .ok f ∧
        declareLines t table (linesForFile t f table (linesAfterBody t rest)) = .ok table₁ ∧
        coverLocations { f with file := settledFile f table₁ } table₁ = .ok r := by
  rw [complete, bind_eq_ok]
  apply exists_congr
  intro f
  rw [settleFile_eq]
  cases hd : declareLines t table (linesForFile t f table (linesAfterBody t rest)) with
  | error e => simp
  | ok table₁ =>
    simp only [map_ok, ok_bind, Except.ok.injEq]
    exact ⟨fun ⟨hb, hc⟩ => ⟨table₁, hb, rfl, hc⟩, fun ⟨_, hb, he, hc⟩ => ⟨hb, he ▸ hc⟩⟩

/-- A scan declares the lines before the label, and completes the function behind it. -/
theorem scanWith_eq (ls : List Text) :
    scanWith t name path ls =
      declareLines t [] (linesBefore t name path ls) >>= fun table =>
        match linesAfter? t name path ls with
        | none => .ok (.absent (namesOf t name (linesBefore t name path ls)))
        | some rest => (complete t name path table rest).map .found := by
  rw [scanWith, seek_eq]
  cases declareLines t [] (linesBefore t name path ls) with
  | error e => rfl
  | ok table =>
    simp only [map_ok, ok_bind]
    cases linesAfter? t name path ls with
    | none => rfl
    | some rest =>
      simp only [Option.map_some]
      cases complete t name path table rest <;> rfl

/-- Without the label, all lines are before it. -/
theorem linesBefore_of_linesAfter? {ls : List Text} (h : linesAfter? t name path ls = none) :
    linesBefore t name path ls = ls := by
  have hd : ls.dropWhile (fun l => !isLabelOf t name path l) = [] := by
    unfold linesAfter? at h
    cases hd : ls.dropWhile fun l => !isLabelOf t name path l with
    | nil => rfl
    | cons l rest =>
      rw [hd] at h
      cases h
  have := List.takeWhile_append_dropWhile (p := fun l => !isLabelOf t name path l) (l := ls)
  rwa [hd, List.append_nil] at this

theorem mem_linesAfter? {ls rest : List Text} (h : linesAfter? t name path ls = some rest) :
    ∀ l ∈ rest, l ∈ ls := by
  intro l hl
  unfold linesAfter? at h
  have hmem : l ∈ ls.dropWhile fun l => !isLabelOf t name path l := by
    cases hd : ls.dropWhile fun l => !isLabelOf t name path l with
    | nil =>
      rw [hd] at h
      cases h
    | cons x xs =>
      rw [hd] at h
      cases h
      exact List.mem_cons_of_mem _ hl
  exact (List.dropWhile_sublist _).subset hmem

/-- A scan that does not find the function has declared every line. -/
theorem scanWith_absent_iff {ls : List Text} {names : List Text} :
    scanWith t name path ls = .ok (.absent names) ↔
      linesAfter? t name path ls = none ∧ (∃ table, declareLines t [] ls = .ok table) ∧
        names = namesOf t name ls := by
  rw [scanWith_eq, bind_eq_ok]
  cases h : linesAfter? t name path ls with
  | none =>
    rw [linesBefore_of_linesAfter? h]
    constructor
    · rintro ⟨table, ht, he⟩
      cases he
      exact ⟨rfl, ⟨table, ht⟩, rfl⟩
    · rintro ⟨-, ⟨table, ht⟩, rfl⟩
      exact ⟨table, ht, rfl⟩
  | some rest =>
    constructor
    · rintro ⟨table, -, he⟩
      obtain ⟨r, -, he⟩ := map_eq_ok.1 he
      cases he
    · rintro ⟨h, -⟩
      cases h

/-- A function is found if and only if its label is there and it can be completed. -/
theorem scanWith_found_iff {ls : List Text} {r : Found} :
    scanWith t name path ls = .ok (.found r) ↔
      ∃ table rest, declareLines t [] (linesBefore t name path ls) = .ok table ∧
        linesAfter? t name path ls = some rest ∧ complete t name path table rest = .ok r := by
  rw [scanWith_eq, bind_eq_ok]
  apply exists_congr
  intro table
  cases linesAfter? t name path ls with
  | none => simp
  | some rest =>
    simp only [map_eq_ok, Scanned.found.injEq, Option.some.injEq]
    exact ⟨fun ⟨ht, r', hr, he⟩ => ⟨rest, ht, rfl, he ▸ hr⟩,
      fun ⟨_, ht, he, hr⟩ => ⟨ht, r, he ▸ hr, rfl⟩⟩

/-! ## The body -/

theorem isTrimmed_fileLines (text : Text) : ∀ l ∈ fileLines text, IsTrimmed l := by
  intro l hl
  obtain ⟨raw, -, rfl⟩ := List.mem_map.1 hl
  exact isTrimmed_trim raw

theorem declaration?_of_no_node {line : Text}
    (h : (Fragments.ofLine t.commentMarkers line).node = []) : declaration? t line = .ok none := by
  apply Classical.byContradiction
  intro hn
  obtain ⟨i, w, ws, hw⟩ := Fragment.words_of_file? hn
  simp [h, words] at hw

theorem declaredFiles_comments (t : Target) (raw : Text) :
    (Body.comments t raw).filterMap Statement.declaredFile? = [] := by
  rcases Body.comments_cases t raw with h | h <;> rw [h] <;> rfl

/-- A line of a body declares the same file as a statement and as a line. -/
theorem declaredFiles_of_readLine {rename : Text → Text} {p p' : Body.Progress} {offset : Nat}
    {raw : Text} {ss : List Statement} (ht : IsTrimmed raw)
    (h : Body.readLine t path rename p offset raw = .ok (p', ss)) :
    ss.filterMap Statement.declaredFile? = (declaration? t raw).toOption.join.toList := by
  rcases Body.readLine_cases h with ⟨hn, -, rfl⟩ | ⟨-, s, hs, rfl⟩
  · rw [Body.parts, ht.trim_eq] at hn
    rw [declaredFiles_comments, declaration?_of_no_node hn]
    rfl
  · rw [List.filterMap_append, declaredFiles_comments, List.nil_append]
    have hc := (Body.readNode_eq_ok_iff.1 hs).1
    rw [Body.parts, ht.trim_eq] at hc
    have hi : ∀ f, Fragment.classify t (Fragments.ofLine t.commentMarkers raw).node p.current rename
        = .ok (some (.file f)) ↔ declaration? t raw = .ok (some f) :=
      fun f => Fragment.classify_file_iff (Fragments.isTrimmed_node ht)
    cases hj : (declaration? t raw).toOption.join with
    | some f =>
      have := (hi f).2 (join_toOption_eq_some_iff.1 hj)
      rw [hc] at this
      cases this
      rfl
    | none =>
      have hno : ∀ f, s ≠ .file f := by
        rintro f rfl
        rw [join_toOption_eq_some_iff.2 ((hi f).1 hc)] at hj
        cases hj
      cases s with
      | file f => exact absurd rfl (hno f)
      | label | loc | directive | instruction | comment => rfl

/-- Reading lines declares the files that the lines declare. -/
theorem declaredFiles_of_readLines {rename : Text → Text} {p p' : Body.Progress} {offset : Nat}
    {ls : List Text} {ss : List Statement} (ht : ∀ l ∈ ls, IsTrimmed l)
    (h : Body.readLines t path rename p offset ls = .ok (p', ss)) :
    ss.filterMap Statement.declaredFile? = declarations t ls := by
  induction ls generalizing p offset ss with
  | nil =>
    cases h
    rfl
  | cons raw ls ih =>
    obtain ⟨q, ss₁, ss₂, h₁, h₂, rfl⟩ := Body.readLines_cons_eq_ok.1 h
    rw [List.filterMap_append, declaredFiles_of_readLine (ht raw List.mem_cons_self) h₁,
      ih (fun l hl => ht l (List.mem_cons_of_mem _ hl)) h₂, declarations, declarations,
      List.filterMap_cons]
    cases (declaration? t raw).toOption.join <;> rfl

theorem declaredFiles_of_read {ls : List Text} {f : Function} (ht : ∀ l ∈ ls, IsTrimmed l)
    (h : Body.read t path name ls = .ok f) : f.declaredFiles = declarations t ls := by
  obtain ⟨p, ss, hr, rfl⟩ := Body.read_eq_ok_iff.1 h
  exact declaredFiles_of_readLines ht hr

/-- The declared files of a function are those of its statements. -/
theorem mem_declaredFiles_iff {f : Function} {g : FileEntry} :
    g ∈ f.declaredFiles ↔ .file g ∈ f.statements := by
  rw [Function.declaredFiles, List.mem_filterMap]
  constructor
  · rintro ⟨s, hs, he⟩
    cases s with
    | file h => cases he; exact hs
    | label | loc | directive | instruction | comment => cases he
  · intro h
    exact ⟨_, h, rfl⟩

/-- The file that a function settles on is declared in its body, or the table has it. -/
theorem mem_of_settledFile {ls : List Text} {f : Function} {table : FileTable} {g : FileEntry}
    (hread : Body.read t path name ls = .ok f) (h : settledFile f table = some g) :
    g ∈ f.declaredFiles ∨ ∃ k, table.get? k = some g := by
  rcases settledFile_cases h with hf | ⟨-, l, -, hg⟩
  · obtain ⟨p, hpf, -, ha⟩ := Body.accounts_of_read hread
    exact .inl (mem_declaredFiles_iff.2 (ha.file g (hpf.trans hf)))
  · exact .inr ⟨l.file, hg⟩

end Locator

end AsmLens
