import AsmLens.Proofs.Assembly.Scanning
import AsmLens.Proofs.Assembly.Searching
import AsmLens.Proofs.Source.Correlating

/-!
# The file table of a located function

The table that comes with a function covers it (`Covers`): it has a file for every location that
the function refers to, and it is what the scanned lines declare. The function's file may have been
settled in four ways, by the body before its first location or after it, by the lines before the
label, or by the lines after the body. In each it is the file of the function's location
(`ownFile_of_complete`).
-/

namespace AsmLens

open Text

namespace Locator

section

variable (t : Target)

/-- The lines that a scan takes declarations from: those before the label, those of the body, and
those after it that are read for the function's file. -/
def scannedLines (name : Text → Text) (path : Text) (ls : List Text) : List Text :=
  match linesAfter? t name path ls with
  | none => ls
  | some rest =>
    let before := linesBefore t name path ls
    let after := match Body.read t path name (bodyLines t rest), declareLines t [] before with
      | .ok f, .ok table => linesForFile t f table (linesAfterBody t rest)
      | _, _ => []
    before ++ bodyLines t rest ++ after

/-- A table covers its function and is what the scanned lines declare. -/
structure Covers (scanned : List Text) (r : Found) : Prop where
  references : ∀ s ∈ r.function.statements, ∀ l, s.reference? = some l → l.file ∈ r.table.indices
  keyed : ∀ k f, r.table.get? k = some f → f.index = k
  declared : ∀ f ∈ declarations t scanned, r.table.get? f.index = some f
  only : ∀ k f, r.table.get? k = some f → f ∈ declarations t scanned
  ownFile : ∀ l, r.function.loc = some l →
    ∃ f, r.function.file = some f ∧ f.index = l.file ∧ r.table.get? f.index = some f

end

variable {t : Target} {name : Text → Text} {path : Text}

theorem declarations_append (ls ls' : List Text) :
    declarations t (ls ++ ls') = declarations t ls ++ declarations t ls' :=
  List.filterMap_append

theorem mem_locations_iff {f : Function} {l : Loc} : l ∈ f.locations ↔ .loc l ∈ f.statements := by
  rw [Function.locations, List.mem_filterMap]
  constructor
  · rintro ⟨s, hs, he⟩
    cases s with
    | loc k => cases he; exact hs
    | label | file | directive | instruction | comment => cases he
  · intro h
    exact ⟨_, h, rfl⟩

/-- What a statement refers to is set in the body. -/
theorem mem_locations_of_reference? {f : Function} {ls : List Text} {s : Statement} {l : Loc}
    (h : Body.read t path name ls = .ok f) (hs : s ∈ f.statements) (hr : s.reference? = some l) :
    l ∈ f.locations := by
  obtain ⟨p, -, -, ha⟩ := Body.accounts_of_read h
  rw [mem_locations_iff]
  cases s with
  | loc k =>
    cases hr
    exact hs
  | label | instruction => exact ha.carried _ hs l hr
  | file | directive | comment => cases hr

/-- A completed function whose location is set has the file of that location. -/
theorem ownFile_of_complete {f : Function} {ls : List Text} {table table' : FileTable} {l : Loc}
    (hread : Body.read t path name ls = .ok f) (ht : FileTable.Keyed table)
    (hd : FileTable.Declared table ((settledFile f table).toList ++ f.declaredFiles) table')
    (hcover : ∀ l ∈ f.locations, l.file ∈ table'.indices) (hl : f.loc = some l) :
    ∃ g, settledFile f table = some g ∧ g.index = l.file ∧ table'.get? g.index = some g := by
  obtain ⟨p, hpf, hpl, ha⟩ := Body.accounts_of_read hread
  rw [hl] at hpl
  cases hs : settledFile f table with
  | some g =>
    have hadded : table'.get? g.index = some g := hd.added g (by simp [hs])
    rcases settledFile_cases hs with hf | ⟨-, l', hl', hg⟩
    · exact ⟨g, rfl, ha.agree g l (hpf.trans hf) hpl, hadded⟩
    · cases hl.symm.trans hl'
      exact ⟨g, rfl, ht _ _ hg, hadded⟩
  | none =>
    -- The body left the file open and the table has none: no declaration can have covered `l`.
    have hf : f.file = none ∧ table.get? l.file = none := by
      unfold settledFile at hs
      split at hs
      · rename_i l' hf hl'
        cases hl.symm.trans hl'
        exact ⟨hf, hs⟩
      · rename_i hno
        exact absurd hl (hno l hs)
    have hmem : l ∈ f.locations := mem_locations_iff.2 (ha.loc l hpl)
    obtain ⟨g, hg⟩ := FileTable.mem_indices_iff.1 (hcover l hmem)
    rcases hd.only _ _ hg with hold | hnew
    · rw [hf.2] at hold
      cases hold
    · rw [hs, Option.toList_none, List.nil_append, mem_declaredFiles_iff] at hnew
      exact absurd (hd.keyed _ _ hg) (ha.missed (hpf.trans hf.1) l hpl g hnew)

/-- Completing a table adds what the body declares and nothing else. -/
theorem only_of_complete {f : Function} {ls : List Text} {table table' : FileTable} {k : Int}
    {g : FileEntry} (hread : Body.read t path name ls = .ok f)
    (hd : FileTable.Declared table ((settledFile f table).toList ++ f.declaredFiles) table')
    (hg : table'.get? k = some g) : (∃ i, table.get? i = some g) ∨ g ∈ f.declaredFiles := by
  rcases hd.only k g hg with hk | hk
  · exact .inl ⟨k, hk⟩
  · rcases List.mem_append.1 hk with hk | hk
    · exact (mem_of_settledFile hread (Option.mem_toList.1 hk)).symm
    · exact .inr hk

/-- The table of a found function covers it. -/
theorem covers_of_scanWith {ls : List Text} {r : Found} (ht : ∀ l ∈ ls, IsTrimmed l)
    (h : scanWith t name path ls = .ok (.found r)) : Covers t (scannedLines t name path ls) r := by
  obtain ⟨table, rest, hbefore, hrest, hc⟩ := scanWith_found_iff.1 h
  obtain ⟨f, table₁, hread, hafter, hcover⟩ := complete_eq_ok_iff.1 hc
  obtain ⟨table', hown, hall, rfl⟩ := coverLocations_eq_ok_iff.1 hcover
  have hscanned : scannedLines t name path ls = linesBefore t name path ls ++ bodyLines t rest
      ++ linesForFile t f table (linesAfterBody t rest) := by
    rw [scannedLines, hrest]
    dsimp only
    rw [hread, hbefore]
  have hbody : f.declaredFiles = declarations t (bodyLines t rest) := by
    refine declaredFiles_of_read (fun l hl => ht l ?_) hread
    exact mem_linesAfter? hrest l ((List.takeWhile_sublist _).subset hl)
  have hsplit : ∀ g, g ∈ declarations t (scannedLines t name path ls) ↔
      g ∈ declarations t (linesBefore t name path ls) ∨ g ∈ f.declaredFiles ∨
        g ∈ declarations t (linesForFile t f table (linesAfterBody t rest)) := by
    intro g
    rw [hscanned, declarations_append, declarations_append, hbody, List.mem_append,
      List.mem_append, or_assoc]
  -- Three stretches are declared one after another: before the label, after the body, the body.
  have hd :=
    FileTable.declared_of_declareAll FileTable.keyed_nil (declareLines_eq_ok_iff.1 hbefore).2
  have hd₁ := hd.trans
    (FileTable.declared_of_declareAll hd.keyed (declareLines_eq_ok_iff.1 hafter).2)
  have hd' : FileTable.Declared table₁ ((settledFile f table₁).toList ++ f.declaredFiles) table' :=
    FileTable.declared_of_declareAll hd₁.keyed hown
  constructor
  · intro s hs l hl
    exact hall l (mem_locations_of_reference? (f := f) hread hs hl)
  · exact hd'.keyed
  · intro g hg
    apply (hd₁.trans hd').added g
    rcases (hsplit g).1 hg with hg | hg | hg <;> simp [hg]
  · intro k g hg
    rw [hsplit]
    rcases only_of_complete hread hd' hg with ⟨i, hi⟩ | hbody
    · rcases hd₁.only i g hi with hnil | hmem
      · cases hnil
      · exact (List.mem_append.1 hmem).imp_right .inr
    · exact .inr (.inl hbody)
  · intro l hl
    exact ownFile_of_complete hread hd₁.keyed hd' hall hl

/-- **A located function comes with a table that covers it.** The table has every file that the
function refers to, each under the index and with the path that the scanned lines declare, and the
function's own file is that of its location. So correlating never misses a file of the table; it
fails so only if the sysroot does, which that of a toolchain does not. -/
theorem locate_covers {d d' : Demangler} {path : Text} {files : List (Except Failure Text)}
    {r : Found} (h : locate d path files = (.ok (.found r), d')) :
    (∃ (earlier : List Text) (text : Text) (later : List (Except Failure Text)),
      files = earlier.map .ok ++ .ok text :: later ∧
      scanWith d.target d'.name path (fileLines text) = .ok (.found r) ∧
      Covers d.target (scannedLines d.target d'.name path (fileLines text)) r) ∧
    (∀ fs sysroot limit base id missing known,
      (Correlation.ofFunction fs sysroot limit base r.function r.table).MayFail
          (.incompleteTable id missing known) →
        sysroot.MayFail (.incompleteTable id missing known)) ∧
    ∀ (toolchain : Toolchain) fs limit base id missing known,
      ¬ (Correlation.ofFunction fs toolchain.sysroot limit base r.function r.table).MayFail
        (.incompleteTable id missing known) := by
  obtain ⟨earlier, names, d₁, text, later, hfiles, hpass, hscan⟩ := searchFiles_found h
  have htarget : d'.target = d.target := by
    exact (scan_eq_ok hscan).2.1.trans (hpass.extends (extends_scan path)).target
  have hfound : scanWith d.target d'.name path (fileLines text) = .ok (.found r) := by
    rw [← (hpass.extends (extends_scan path)).target]
    exact (scan_eq_ok hscan).2.2
  have hcovers := covers_of_scanWith (isTrimmed_fileLines text) hfound
  have hsysroot : ∀ fs sysroot limit base id missing known,
      (Correlation.ofFunction fs sysroot limit base r.function r.table).MayFail
          (.incompleteTable id missing known) →
        sysroot.MayFail (.incompleteTable id missing known) := by
    intro fs sysroot limit base id missing known hf
    rcases Correlation.mayFail_ofFunction hf with hw | hs | ⟨_, he⟩ | ⟨_, _, he⟩
    · exact absurd hw (Correlation.wanted_ne_error hcovers.references)
    · exact hs
    · cases he
    · cases he
  refine ⟨⟨earlier, text, later, hfiles, hfound, hcovers⟩, hsysroot, ?_⟩
  intro toolchain fs limit base id missing known hf
  rcases Toolchain.mayFail_sysroot (hsysroot _ _ _ _ _ _ _ hf) with ⟨_, he⟩ | he | he
  · cases he
  · cases he
  · cases he

/-- The file of a function may be declared after its body. -/
theorem locate_covers_of_file_after_body :
    let d := Demangler.new ⟨"x86_64-unknown-linux-gnu".toList⟩ none fun _ _ => .notStarted []
    let files : List (Except Failure Text) :=
      [.ok "_g:\nret\n.cfi_endproc\n".toList,
        .ok "_f:\n.loc 3 7 0\nret\n.cfi_endproc\n.file 1 \"a.rs\"\n.file 3 \"b.rs\"\n".toList]
    ∃ r d', locate d "_f".toList files = (.ok (.found r), d') ∧
      r.function.file = some ⟨"b.rs".toList, 3⟩ ∧ r.table.indices = [1, 3] ∧
      ∀ (toolchain : Toolchain) fs limit base id missing known,
        ¬ (Correlation.ofFunction fs toolchain.sysroot limit base r.function r.table).MayFail
          (.incompleteTable id missing known) := by
  intro d files
  let r : Found :=
    { function := ⟨"_f".toList, some ⟨"b.rs".toList, 3⟩, some ⟨3, 7, 0⟩,
        [.loc ⟨3, 7, 0⟩, .instruction ⟨"ret".toList, [], some ⟨3, 7, 0⟩, false, false⟩]⟩
      table := [(1, ⟨"a.rs".toList, 1⟩), (3, ⟨"b.rs".toList, 3⟩)] }
  have hr : (locate d "_f".toList files).1 = .ok (.found r) :=
    toOption_eq_some_iff.1 (by decide +kernel)
  have h : locate d "_f".toList files = (.ok (.found r), (locate d "_f".toList files).2) := by
    rw [← hr]
  exact ⟨r, _, h, rfl, rfl, (locate_covers h).2.2⟩

end Locator

end AsmLens
