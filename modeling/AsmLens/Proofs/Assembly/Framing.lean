import AsmLens.Proofs.Assembly.LineByLine
import AsmLens.Proofs.Assembly.Scanning

/-!
# What a scan depends on

A text with the label looked for has three parts: the lines before the label, the body up to the
end marker, and the lines after it (`Parts`). What the scan comes to is a function of the files
declared before the label, of the body, and of the files declared after it
(`scanWith_of_parts`). The last matter only if the body leaves the function's file open and no file
declared before the label is that of its first location (`outcome_of_settlesEarly`). Everything
else in a text, other functions and lines that are none, is passed over.
-/

namespace AsmLens

open Text

namespace Locator

section

variable (t : Target) (name : Text → Text) (path : Text)

/-- The lines of a text before the first label of a function called `path`, those of its body, and
those from its end marker on. -/
structure Parts (text : Text) (before body after : List Text) : Prop where
  lines : ∃ label, isLabelOf t name path label = true ∧
    fileLines text = before ++ label :: (body ++ after)
  before : ∀ l ∈ before, isLabelOf t name path l = false
  body : ∀ l ∈ body, startsWith t.endMarker l = false
  after : ∀ l ∈ after.head?, startsWith t.endMarker l = true

/-- The file directives of a text have numbers for their indices. -/
def IsReadable (text : Text) : Prop :=
  ∀ l ∈ fileLines text, ∃ f, declaration? t l = .ok f

/-- Files up to the first under `index`, which is included. -/
def throughIndex (index : Int) : List FileEntry → List FileEntry
  | [] => []
  | f :: fs => if f.index = index then [f] else f :: throughIndex index fs

/-- The files declared after a body that are looked at for the file of its function. -/
def filesFor (f : Function) (table : FileTable) (later : List FileEntry) : List FileEntry :=
  match f.file, f.loc with
  | none, some l => if (table.get? l.file).isSome then [] else throughIndex l.file later
  | _, _ => []

/-- What a scan comes to, from the files declared before the label, the body, and the files declared
after it. -/
def outcome (known : List FileEntry) (body : List Text) (later : List FileEntry) :
    Except Failure Found := do
  let table ← FileTable.declareAll [] known
  let f ← Body.read t path name body
  let table ← table.declareAll (filesFor f table later)
  coverLocations { f with file := settledFile f table } table

/-- A function whose file is settled without the lines after its body: it sets no location, it names
its file, or the file of its first location is among those declared before its label. -/
def SettlesEarly (f : Function) (known : List FileEntry) : Prop :=
  f.locations = [] ∨ f.file ≠ none ∨
    ∃ l, f.locations.head? = some l ∧ ∃ g ∈ known, g.index = l.file

end

variable {t : Target} {name : Text → Text} {path : Text}

/-! ## Readable declarations -/

/-- Lines whose declarations can be read declare them and do nothing else. -/
theorem declareLines_of_readable {ls : List Text} (h : ∀ l ∈ ls, ∃ f, declaration? t l = .ok f)
    (table : FileTable) : declareLines t table ls = table.declareAll (declarations t ls) := by
  induction ls generalizing table with
  | nil => rfl
  | cons l ls ih =>
    obtain ⟨f, hf⟩ := h l List.mem_cons_self
    have hd : declarations t (l :: ls) = f.toList ++ declarations t ls := by
      rw [declarations, List.filterMap_cons, hf]
      cases f <;> rfl
    rw [declareLines_cons, declareLine_eq, hf, ok_bind, hd, FileTable.declareAll_append]
    exact congrArg _ (funext fun table => ih (fun l hl => h l (List.mem_cons_of_mem _ hl)) table)

theorem declarations_throughDeclaration (index : Int) (ls : List Text) :
    declarations t (throughDeclaration t index ls) = throughIndex index (declarations t ls) := by
  induction ls with
  | nil => rfl
  | cons l ls ih =>
    rw [throughDeclaration, declares]
    cases hd : (declaration? t l).toOption.join with
    | none =>
      have hno : ∀ ls, declarations t (l :: ls) = declarations t ls := fun ls =>
        List.filterMap_cons_none hd
      rw [if_neg (by simp), hno, hno, ih]
    | some f =>
      have hyes : ∀ ls, declarations t (l :: ls) = f :: declarations t ls := fun ls =>
        List.filterMap_cons_some hd
      by_cases hi : f.index = index
      · rw [if_pos (by simp [hi]), hyes, hyes, throughIndex, if_pos hi]
        rfl
      · rw [if_neg (by simp [hi]), hyes, hyes, throughIndex, if_neg hi, ih]

/-- The lines looked at for the own file declare the files looked at. -/
theorem declarations_linesForFile (f : Function) (table : FileTable) (after : List Text) :
    declarations t (linesForFile t f table after) = filesFor f table (declarations t after) := by
  unfold linesForFile filesFor
  cases f.file with
  | some file => rfl
  | none =>
    cases f.loc with
    | none => rfl
    | some l =>
      dsimp only
      split
      · rfl
      · exact declarations_throughDeclaration _ _

/-! ## The parts of a text -/

namespace Parts

variable {text : Text} {before body after : List Text}

/-- The parts of a file are those of the scan. -/
theorem linesBefore_eq (h : Parts t name path text before body after) :
    linesBefore t name path (fileLines text) = before := by
  obtain ⟨label, hlabel, hlines⟩ := h.lines
  have hpass : ∀ l ∈ before, (!isLabelOf t name path l) = true := fun l hl => by
    rw [h.before l hl]
    rfl
  rw [linesBefore, hlines, takeWhile_run hpass (by simp [hlabel])]

theorem linesAfter?_eq (h : Parts t name path text before body after) :
    linesAfter? t name path (fileLines text) = some (body ++ after) := by
  obtain ⟨label, hlabel, hlines⟩ := h.lines
  have hpass : ∀ l ∈ before, (!isLabelOf t name path l) = true := fun l hl => by
    rw [h.before l hl]
    rfl
  rw [linesAfter?, hlines, dropWhile_run hpass (by simp [hlabel])]
  rfl

theorem bodyLines_eq (h : Parts t name path text before body after) :
    bodyLines t (body ++ after) = body ∧ linesAfterBody t (body ++ after) = after := by
  have hpass : ∀ l ∈ body, (!startsWith t.endMarker l) = true := fun l hl => by
    rw [h.body l hl]
    rfl
  have hstop : ∀ l ∈ after.head?, (!startsWith t.endMarker l) = false := fun l hl => by
    rw [h.after l hl]
    rfl
  exact ⟨takeWhile_run hpass hstop, dropWhile_run hpass hstop⟩

theorem mem_before (h : Parts t name path text before body after) :
    ∀ l ∈ before, l ∈ fileLines text := by
  obtain ⟨label, -, hlines⟩ := h.lines
  intro l hl
  rw [hlines]
  exact List.mem_append_left _ hl

theorem mem_after (h : Parts t name path text before body after) :
    ∀ l ∈ after, l ∈ fileLines text := by
  obtain ⟨label, -, hlines⟩ := h.lines
  intro l hl
  rw [hlines]
  exact List.mem_append_right _ (List.mem_cons_of_mem _ (List.mem_append_right _ hl))

end Parts

/-- Completing a function is told by the declarations after its body. -/
theorem complete_of_readable {rest : List Text} (table : FileTable)
    (h : ∀ l ∈ linesAfterBody t rest, ∃ f, declaration? t l = .ok f) :
    complete t name path table rest =
      Body.read t path name (bodyLines t rest) >>= fun f =>
        table.declareAll (filesFor f table (declarations t (linesAfterBody t rest))) >>= fun table =>
          coverLocations { f with file := settledFile f table } table := by
  rw [complete]
  refine congrArg _ (funext fun f => ?_)
  have hfile : ∀ l ∈ linesForFile t f table (linesAfterBody t rest),
      ∃ f, declaration? t l = .ok f := fun l hl => h l (mem_linesForFile f table _ l hl)
  rw [settleFile_eq, declareLines_of_readable hfile, declarations_linesForFile]
  cases table.declareAll (filesFor f table (declarations t (linesAfterBody t rest))) <;> rfl

/-- A scan is told by the declarations before the label, the body, and the declarations after it. -/
theorem scanWith_of_parts {text : Text} {before body after : List Text}
    (h : Parts t name path text before body after) (hr : IsReadable t text) :
    scanWith t name path (fileLines text) =
      (outcome t name path (declarations t before) body (declarations t after)).map .found := by
  obtain ⟨hbody, hafter⟩ := h.bodyLines_eq
  rw [scanWith_eq, h.linesBefore_eq, h.linesAfter?_eq, outcome,
    declareLines_of_readable fun l hl => hr l (h.mem_before l hl)]
  cases FileTable.declareAll [] (declarations t before) with
  | error e => rfl
  | ok table =>
    rw [ok_bind, ok_bind]
    dsimp only
    rw [complete_of_readable, hbody, hafter]
    rw [hafter]
    exact fun l hl => hr l (h.mem_after l hl)

/-! ## When the rest does not matter -/

/-- No file declared after the body is looked at if the function's file is settled before. -/
theorem filesFor_of_settlesEarly {known : List FileEntry} {body : List Text} {f : Function}
    {table : FileTable} (hf : Body.read t path name body = .ok f) (h : SettlesEarly f known)
    (ht : FileTable.declareAll [] known = .ok table) (later : List FileEntry) :
    filesFor f table later = [] := by
  have hd := FileTable.declared_of_declareAll FileTable.keyed_nil ht
  have hloc := Body.loc_of_read hf
  unfold filesFor
  split
  · rename_i l hfile hl
    rcases h with hno | hown | ⟨l', hl', g, hg, hi⟩
    · rw [hno, List.head?_nil, hl] at hloc
      cases hloc
    · exact absurd hfile hown
    · rw [hl', hl] at hloc
      cases hloc
      rw [if_pos]
      rw [← hi, hd.added g hg]
      rfl
  · rfl

/-- What is declared behind the body makes no difference, if the file is settled before. -/
theorem outcome_of_settlesEarly {known : List FileEntry} {body : List Text}
    (h : ∀ f, Body.read t path name body = .ok f → SettlesEarly f known)
    (later later' : List FileEntry) :
    outcome t name path known body later = outcome t name path known body later' := by
  unfold outcome
  cases ht : FileTable.declareAll [] known with
  | error e => rfl
  | ok table =>
    cases hf : Body.read t path name body with
    | error e => rfl
    | ok f =>
      rw [ok_bind, ok_bind, ok_bind, ok_bind, filesFor_of_settlesEarly hf (h f hf) ht,
        filesFor_of_settlesEarly hf (h f hf) ht]

/-- **A scan depends on nothing else.** Two texts with the function that declare the same files
before its label and have the same body give the same function with the same table, or the same
failure, if the function's file is settled by then; otherwise they do so if they also declare the
same files after the body. -/
theorem scanWith_local (t : Target) (name : Text → Text) (path a b : Text)
    (before before' body after after' : List Text) (ha : IsReadable t a) (hb : IsReadable t b)
    (hpa : Parts t name path a before body after) (hpb : Parts t name path b before' body after')
    (hbefore : declarations t before = declarations t before')
    (hafter : (∀ f, Body.read t path name body = .ok f → SettlesEarly f (declarations t before)) ∨
      declarations t after = declarations t after') :
    ∃ r : Except Failure Found, scanWith t name path (fileLines a) = r.map .found ∧
      scanWith t name path (fileLines b) = r.map .found := by
  refine ⟨_, scanWith_of_parts hpa ha, ?_⟩
  rw [scanWith_of_parts hpb hb, hbefore]
  rcases hafter with hearly | hlater
  · rw [hbefore] at hearly
    rw [outcome_of_settlesEarly hearly]
  · rw [hlater]

/-- What stands around the function may differ: another function, a line that is none, and a file
declared after the body for the index of its location. -/
theorem scanWith_local_among_others :
    let t : Target := ⟨"x86_64-unknown-linux-gnu".toList⟩
    let a := "_g:\n1x\n.file 1 \"a.rs\"\n_f:\n.loc 1 7 0\n.cfi_endproc\n.file 1 \"z.rs\"\n".toList
    let b := " .file 1 \"a.rs\" # a\n\n_f:\n\t.loc 1 7 0\n".toList
    (IsReadable t a ∧ IsReadable t b) ∧
    (Parts t id "_f".toList a ["_g:".toList, "1x".toList, ".file 1 \"a.rs\"".toList]
        [".loc 1 7 0".toList] [".cfi_endproc".toList, ".file 1 \"z.rs\"".toList] ∧
      Parts t id "_f".toList b [".file 1 \"a.rs\" # a".toList, []] [".loc 1 7 0".toList] []) ∧
    ∃ r : Except Failure Found, scanWith t id "_f".toList (fileLines a) = r.map .found ∧
      scanWith t id "_f".toList (fileLines b) = r.map .found := by
  intro t a b
  have hreadable : ∀ text, (∀ l ∈ fileLines text, (declaration? t l).toOption.isSome) →
      IsReadable t text := by
    intro text h l hl
    obtain ⟨f, hf⟩ := Option.isSome_iff_exists.1 (h l hl)
    exact ⟨f, toOption_eq_some_iff.1 hf⟩
  have ha := hreadable a (by decide +kernel)
  have hb := hreadable b (by decide +kernel)
  have hpa : Parts t id "_f".toList a ["_g:".toList, "1x".toList, ".file 1 \"a.rs\"".toList]
      [".loc 1 7 0".toList] [".cfi_endproc".toList, ".file 1 \"z.rs\"".toList] :=
    ⟨⟨"_f:".toList, by decide +kernel, by decide +kernel⟩, by decide +kernel, by decide +kernel,
      by decide +kernel⟩
  have hpb : Parts t id "_f".toList b [".file 1 \"a.rs\" # a".toList, []] [".loc 1 7 0".toList] [] :=
    ⟨⟨"_f:".toList, by decide +kernel, by decide +kernel⟩, by decide +kernel, by decide +kernel,
      by decide +kernel⟩
  have hread : Body.read t "_f".toList id [".loc 1 7 0".toList] =
      .ok ⟨"_f".toList, none, some ⟨1, 7, 0⟩, [.loc ⟨1, 7, 0⟩]⟩ :=
    toOption_eq_some_iff.1 (by decide +kernel)
  have hknown : declarations t ["_g:".toList, "1x".toList, ".file 1 \"a.rs\"".toList] =
      [⟨"a.rs".toList, 1⟩] := by decide +kernel
  refine ⟨⟨ha, hb⟩, ⟨hpa, hpb⟩,
    scanWith_local t id "_f".toList a b _ _ _ _ _ ha hb hpa hpb (by decide +kernel) (.inl ?_)⟩
  intro f hf
  cases hread.symm.trans hf
  rw [hknown]
  exact .inr (.inr ⟨⟨1, 7, 0⟩, rfl, _, List.mem_cons_self, rfl⟩)

end Locator

end AsmLens
