import AsmLens.Proofs.Ir.Relocating

/-!
# The lines of a definition

A definition extends from the first line that defines the symbol asked for up to the next line that
opens a definition or looks like one (`IsExtent`), and what is kept of it is the longest beginning
that ends in a closing brace (`IsClosing`). A search finds exactly the extent that stands first in
its files (`Stands`), and nothing outside the extent matters for what it keeps (`locate_extent`).
-/

namespace AsmLens

open Text

namespace Ir

/-! ## Lines -/

/-- The line defines a symbol called `path`. -/
def Defines (name : Text → Text) (path line : Text) : Prop :=
  ∃ s, lineSymbol? line = some s ∧ name s = path

/-- The line defines a symbol, or begins as if it did. -/
def Opens (line : Text) : Prop :=
  (∃ s, lineSymbol? line = some s) ∨ startsWith keyword line = true

/-- The line is a closing brace. -/
def Closes (line : Text) : Prop :=
  trim line = ['\x7d']

/-- The last line is a closing brace. -/
def EndsClosed (ls : List Text) : Prop :=
  ∃ l ∈ ls.getLast?, Closes l

variable {name : Text → Text} {path : Text} {ls : List Text}

theorem opensDefinition_iff {line : Text} : opensDefinition line = true ↔ Opens line := by
  rw [opensDefinition, Bool.or_eq_true, Option.isSome_iff_exists, Opens]

theorem defines_iff {line : Text} :
    Defines name path line ↔ (lineSymbol? line).map name = some path := by
  rw [Option.map_eq_some_iff, Defines]

instance (line : Text) : Decidable (Defines name path line) :=
  decidable_of_iff _ defines_iff.symm

instance (line : Text) : Decidable (Opens line) :=
  decidable_of_iff _ opensDefinition_iff

/-! ## What is kept -/

/-- What is kept of some lines: the longest beginning that ends in a closing brace, or all of them
if none is one. -/
structure IsClosing (ls kept : List Text) : Prop where
  begins : kept <+: ls
  closed : (∃ l ∈ ls, Closes l) → EndsClosed kept
  longest : (∃ l ∈ ls, Closes l) → ∀ k, k <+: ls → EndsClosed k → k.length ≤ kept.length
  whole : (¬ ∃ l ∈ ls, Closes l) → kept = ls

/-- The longest closing beginning is one only. -/
theorem IsClosing.unique {kept kept' : List Text} (h : IsClosing ls kept)
    (h' : IsClosing ls kept') : kept = kept' := by
  by_cases hc : ∃ l ∈ ls, Closes l
  · have hle := h'.longest hc kept h.begins (h.closed hc)
    have hge := h.longest hc kept' h'.begins (h'.closed hc)
    exact (List.prefix_of_prefix_length_le h.begins h'.begins hle).eq_of_length
      (Nat.le_antisymm hle hge)
  · rw [h.whole hc, h'.whole hc]

/-- The cut is behind the last closing brace, if there is one. -/
theorem toClosingBrace_cases (ls : List Text) :
    (∃ kept l rest, ls = kept ++ l :: rest ∧ Closes l ∧ (∀ x ∈ rest, ¬ Closes x) ∧
        toClosingBrace ls = kept ++ [l]) ∨
      (∀ l ∈ ls, ¬ Closes l) ∧ toClosingBrace ls = ls := by
  have hsplit := List.takeWhile_append_dropWhile (p := fun l => trim l != ['\x7d'])
    (l := ls.reverse)
  have hopen : ∀ l ∈ ls.reverse.takeWhile fun l => trim l != ['\x7d'], ¬ Closes l := fun l hl => by
    have := List.all_eq_true.1 List.all_takeWhile l hl
    rwa [bne_iff_ne] at this
  unfold toClosingBrace
  cases hd : ls.reverse.dropWhile fun l => trim l != ['\x7d'] with
  | nil =>
    rw [hd, List.append_nil] at hsplit
    rw [hsplit] at hopen
    exact .inr ⟨fun l hl => hopen l (List.mem_reverse.2 hl), rfl⟩
  | cons l kept =>
    have hl : Closes l := by
      have := eq_false_of_head?_dropWhile (congrArg List.head? hd)
      simpa [Closes] using this
    rw [hd] at hsplit
    refine .inl ⟨kept.reverse, l, (ls.reverse.takeWhile fun l => trim l != ['\x7d']).reverse, ?_,
      hl, fun x hx => hopen x (List.mem_reverse.1 hx), ?_⟩
    · have := congrArg List.reverse hsplit
      rw [List.reverse_append, List.reverse_cons, List.reverse_reverse, List.append_assoc] at this
      exact this.symm
    · rw [List.reverse_cons]
      split
      · rename_i h
        simp at h
      · rfl

theorem isClosing_toClosingBrace (ls : List Text) : IsClosing ls (toClosingBrace ls) := by
  obtain ⟨kept, l, rest, rfl, hl, hrest, hcut⟩ | ⟨hnone, hcut⟩ := toClosingBrace_cases ls
  · have hbegins : kept ++ [l] <+: kept ++ l :: rest := ⟨rest, by simp⟩
    rw [hcut]
    refine ⟨hbegins, fun _ => ⟨l, by simp, hl⟩, fun _ k hk hclosed => ?_, fun hno => ?_⟩
    · obtain hle | ⟨r, rfl⟩ := List.prefix_or_prefix_of_prefix hk hbegins
      · exact hle.length_le
      · -- A longer beginning ends in a line behind the brace.
        cases r with
        | nil => simp
        | cons x r =>
          obtain ⟨y, hy, hyc⟩ := hclosed
          have hlast : ((kept ++ [l]) ++ x :: r).getLast? = (x :: r).getLast? := by
            rw [List.getLast?_append, List.getLast?_eq_some_getLast (List.cons_ne_nil x r)]
            rfl
          rw [hlast] at hy
          have hsub : x :: r <+: rest := by
            obtain ⟨u, hu⟩ := hk
            exact ⟨u, by simpa using hu⟩
          exact absurd hyc (hrest y (hsub.subset (List.mem_of_getLast? hy)))
    · exact absurd ⟨l, by simp, hl⟩ hno
  · have hno : ¬ ∃ l ∈ ls, Closes l := fun ⟨l, hmem, hl⟩ => hnone l hmem hl
    rw [hcut]
    exact ⟨List.prefix_rfl, fun h => absurd h hno, fun h => absurd h hno, fun _ => rfl⟩

/-! ## One file -/

/-- Where the definition of `path` stands in the lines of a file: `first` is the first line that
defines it, and it goes on with `body`, up to the next line that opens a definition or the end. -/
structure IsExtent (name : Text → Text) (path : Text) (ls before : List Text) (first : Text)
    (body after : List Text) : Prop where
  lines_eq : ls = before ++ first :: (body ++ after)
  absent : ∀ l ∈ before, ¬ Defines name path l
  defines : Defines name path first
  inside : ∀ l ∈ body, ¬ Opens l
  stops : ∀ l ∈ after.head?, Opens l

/-- The first line that defines `path` begins an extent. -/
theorem exists_extent (h : ∃ l ∈ ls, Defines name path l) :
    ∃ before first body after, IsExtent name path ls before first body after := by
  induction ls with
  | nil =>
    obtain ⟨l, hl, -⟩ := h
    cases hl
  | cons line ls ih =>
    by_cases hline : Defines name path line
    · refine ⟨[], line, ls.takeWhile fun l => !opensDefinition l,
        ls.dropWhile fun l => !opensDefinition l,
        by rw [List.takeWhile_append_dropWhile, List.nil_append],
        fun _ hl => absurd hl List.not_mem_nil, hline, fun l hl => ?_, fun l hl => ?_⟩
      · have := List.all_eq_true.1 List.all_takeWhile l hl
        rw [← opensDefinition_iff]
        simpa using this
      · have := eq_false_of_head?_dropWhile hl
        rw [← opensDefinition_iff]
        simpa using this
    · have hrest : ∃ l ∈ ls, Defines name path l := by
        obtain ⟨l, hl, hdefines⟩ := h
        obtain rfl | hl := List.mem_cons.1 hl
        · exact absurd hdefines hline
        · exact ⟨l, hl, hdefines⟩
      obtain ⟨before, first, body, after, he⟩ := ih hrest
      exact ⟨line :: before, first, body, after, congrArg (line :: ·) he.lines_eq,
        List.forall_mem_cons.2 ⟨hline, he.absent⟩, he.defines, he.inside, he.stops⟩

/-- A line that does not define `path` is passed over. -/
theorem scanWith_cons {line : Text} (h : ¬ Defines name path line) (ls : List Text) :
    scanWith name path (line :: ls) = scanWith name path ls ∨
      ∃ s, scanWith name path (line :: ls) = match scanWith name path ls with
        | .absent names => .absent (name s :: names)
        | .found f => .found f := by
  rw [scanWith]
  cases hs : lineSymbol? line with
  | none => exact .inl rfl
  | some s => exact .inr ⟨s, if_neg fun hname => h ⟨s, hs, hname⟩⟩

/-- A scan finds what is kept of the extent. -/
theorem scanWith_of_extent {before body after : List Text} {first : Text}
    (h : IsExtent name path ls before first body after) :
    scanWith name path ls = .found ⟨path, toClosingBrace (first :: body)⟩ := by
  obtain ⟨rfl, habsent, ⟨s, hs, hname⟩, hinside, hstops⟩ := h
  induction before with
  | nil =>
    have htake : (body ++ after).takeWhile (fun l => !opensDefinition l) = body := by
      apply takeWhile_run
      · intro l hl
        simpa [← opensDefinition_iff] using hinside l hl
      · intro l hl
        simpa [← opensDefinition_iff] using hstops l hl
    rw [List.nil_append, scanWith, hs]
    dsimp only
    rw [if_pos hname, htake]
  | cons line before ih =>
    obtain ⟨hline, hbefore⟩ := List.forall_mem_cons.1 habsent
    have ih := ih hbefore
    obtain hskip | ⟨s, hskip⟩ := scanWith_cons hline (before ++ first :: (body ++ after))
    · exact hskip.trans ih
    · rw [List.cons_append, hskip, ih]

/-- A scan is in vain if no line defines `path`. -/
theorem scanWith_of_absent (h : ∀ l ∈ ls, ¬ Defines name path l) :
    ∃ names, scanWith name path ls = .absent names := by
  induction ls with
  | nil => exact ⟨[], rfl⟩
  | cons line ls ih =>
    obtain ⟨hline, hls⟩ := List.forall_mem_cons.1 h
    obtain ⟨names, hn⟩ := ih hls
    obtain hskip | ⟨s, hskip⟩ := scanWith_cons hline ls
    · exact ⟨names, hskip.trans hn⟩
    · exact ⟨name s :: names, by rw [hskip, hn]⟩

theorem scanWith_congr {name' : Text → Text} (path : Text)
    (h : ∀ s ∈ ls.filterMap lineSymbol?, name s = name' s) :
    scanWith name path ls = scanWith name' path ls := by
  induction ls with
  | nil => rfl
  | cons line ls ih =>
    rw [scanWith, scanWith]
    cases hs : lineSymbol? line with
    | none =>
      rw [List.filterMap_cons_none hs] at h
      exact ih h
    | some s =>
      rw [List.filterMap_cons_some hs, List.forall_mem_cons] at h
      dsimp only
      rw [h.1, ih h.2]

/-! ## Several files -/

/-- Looks for a definition in several files with any naming of symbols. -/
def locateWith (name : Text → Text) (path : Text) (files : List (Except Failure Text)) :
    Except Failure (Located IrDefinition) :=
  searchTexts (fun text => .ok (scanWith name path (lines text))) [] files

/-- The definition of `path` that stands first in the files has the given extent; the files up to
the one it stands in can be read. -/
inductive Stands (name : Text → Text) (path : Text) :
    List (Except Failure Text) → List Text → Prop where
  | here {text later before first body after}
    (extent : IsExtent name path (lines text) before first body after) :
    Stands name path (.ok text :: later) (first :: body)
  | later {text files extent} (absent : ∀ l ∈ lines text, ¬ Defines name path l)
    (stands : Stands name path files extent) : Stands name path (.ok text :: files) extent

variable {files : List (Except Failure Text)} {extent : List Text}

/-- A definition that stands in the files is found. -/
theorem searchTexts_of_stands (h : Stands name path files extent) (seen : List Text) :
    searchTexts (fun text => .ok (scanWith name path (lines text))) seen files =
      .ok (.found ⟨path, toClosingBrace extent⟩) := by
  induction h generalizing seen with
  | here he => rw [searchTexts, scanWith_of_extent he]
  | later absent _ ih =>
    obtain ⟨names, hn⟩ := scanWith_of_absent absent
    rw [searchTexts, hn]
    exact ih _

theorem stands_of_searchTexts {seen : List Text} {r : IrDefinition}
    (h : searchTexts (fun text => .ok (scanWith name path (lines text))) seen files =
      .ok (.found r)) : ∃ extent, Stands name path files extent := by
  induction files generalizing seen with
  | nil => cases h
  | cons file files ih =>
    cases file with
    | error e => cases h
    | ok text =>
      by_cases hdefines : ∃ l ∈ lines text, Defines name path l
      · obtain ⟨before, first, body, after, he⟩ := exists_extent hdefines
        exact ⟨first :: body, .here he⟩
      · have habsent : ∀ l ∈ lines text, ¬ Defines name path l := fun l hl hd =>
          hdefines ⟨l, hl, hd⟩
        obtain ⟨names, hn⟩ := scanWith_of_absent habsent
        rw [searchTexts, hn] at h
        obtain ⟨extent, hs⟩ := ih h
        exact ⟨extent, .later habsent hs⟩

/-- Some line of readable files defines `path` if and only if its definition stands in them. -/
theorem exists_stands_iff {texts : List Text} :
    (∃ extent, Stands name path (texts.map .ok) extent) ↔
      ∃ text ∈ texts, ∃ l ∈ lines text, Defines name path l := by
  induction texts with
  | nil =>
    constructor
    · rintro ⟨_, ⟨⟩⟩
    · rintro ⟨_, ht, -⟩
      cases ht
  | cons text texts ih =>
    simp only [List.mem_cons, exists_eq_or_imp, List.map_cons]
    constructor
    · rintro ⟨_, he | ⟨-, hs⟩⟩
      · rename_i before first body after
        exact .inl ⟨first, he.lines_eq ▸ by simp, he.defines⟩
      · exact .inr (ih.1 ⟨_, hs⟩)
    · intro h
      by_cases hdefines : ∃ l ∈ lines text, Defines name path l
      · obtain ⟨before, first, body, after, he⟩ := exists_extent hdefines
        exact ⟨first :: body, .here he⟩
      · obtain ⟨extent, hs⟩ := ih.2 (h.resolve_left hdefines)
        exact ⟨extent, .later (fun l hl hd => hdefines ⟨l, hl, hd⟩) hs⟩

/-- An extent begins with the line that defines the symbol, and no other line of it opens a
definition. -/
theorem Stands.cons (h : Stands name path files extent) :
    ∃ first body, extent = first :: body ∧ Defines name path first ∧ ∀ l ∈ body, ¬ Opens l := by
  induction h with
  | here he => exact ⟨_, _, rfl, he.defines, he.inside⟩
  | later _ _ ih => exact ih

/-- What is kept of an extent begins with its first line, which is no closing brace. -/
theorem IsClosing.cons {first : Text} {body kept : List Text}
    (h : IsClosing (first :: body) kept) : ∃ rest, kept = first :: rest ∧ rest <+: body := by
  have hne : kept ≠ [] := by
    by_cases hc : ∃ l ∈ first :: body, Closes l
    · obtain ⟨l, hl, -⟩ := h.closed hc
      rintro rfl
      cases hl
    · rw [h.whole hc]
      exact List.cons_ne_nil _ _
  obtain ⟨l, rest, rfl⟩ := List.exists_cons_of_ne_nil hne
  obtain ⟨rfl, hrest⟩ := List.cons_prefix_cons.1 h.begins
  exact ⟨rest, rfl, hrest⟩

/-- The names that a search ends with are those it went by, whatever the tool answered, unless what
the tool wrote was no text. -/
theorem searchFiles_eq_searchTexts_names (d : Demangler) (path : Text) (seen : List Text)
    (files : List (Except Failure Text)) :
    ((searchFiles (scan path) d seen files).1 = .error .notText ∧ d.MayGarble) ∨
      (searchFiles (scan path) d seen files).1 =
        searchTexts (fun text =>
          .ok (scanWith (searchFiles (scan path) d seen files).2.name path (lines text)))
          seen files := by
  induction files generalizing d seen with
  | nil => exact .inr rfl
  | cons file files ih =>
    cases file with
    | error e => exact .inr rfl
    | ok text =>
      rw [searchFiles, searchTexts]
      rcases scan_cases path d text with ⟨d', hscan, -, hmay⟩ | ⟨d', -, he, hscan⟩
      · rw [hscan]
        exact .inl ⟨rfl, hmay⟩
      · cases hs : scanWith d'.name path (lines text) with
        | found r =>
          rw [hscan, hs]
          dsimp only
          rw [hs]
          exact .inr rfl
        | absent names =>
          -- All symbols of the file are known by now, so their names stay.
          rw [hs] at hscan
          have hsurveyed := surveyed_of_scan hscan
          have hlater := extends_searchFiles (extends_scan path) d' (seen ++ names) files
          have hsame := scanWith_congr path fun s (h : s ∈ symbols text) =>
            hlater.name_eq (hsurveyed.knows s h)
          rw [hscan]
          dsimp only
          rw [hsame, hs]
          exact (ih d' (seen ++ names)).imp_left fun h => ⟨h.1, he.mayGarble h.2⟩

/-- **The lines of a definition.** A search finds a definition if and only if one stands in its
files, and gives the longest beginning of its extent that ends in a closing brace, or all of the
extent if there is none. In readable files one stands if and only if some line defines the symbol.
What is found begins with that line and holds no other that opens a definition, and where the extent
is the same, so is what is found. A search with a demangler is one by the names that the demangler
has in the end, unless what its tool writes is no text. -/
theorem locate_extent (name : Text → Text) (path : Text) (files : List (Except Failure Text)) :
    (∀ r, locateWith name path files = .ok (.found r) ↔
      ∃ extent, Stands name path files extent ∧ r.path = path ∧ IsClosing extent r.lines) ∧
    (∀ texts : List Text, files = texts.map .ok →
      ((∃ r, locateWith name path files = .ok (.found r)) ↔
        ∃ text ∈ texts, ∃ l ∈ lines text, Defines name path l)) ∧
    (∀ r, locateWith name path files = .ok (.found r) →
      ∃ first rest, r.lines = first :: rest ∧ Defines name path first ∧ ∀ l ∈ rest, ¬ Opens l) ∧
    (∀ files' extent, Stands name path files extent → Stands name path files' extent →
      locateWith name path files' = locateWith name path files) ∧
    ∀ d : Demangler,
      ((locate d path files).1 = .error .notText ∧ d.MayGarble) ∨
        (locate d path files).1 = locateWith (locate d path files).2.name path files := by
  have hfound : ∀ r, locateWith name path files = .ok (.found r) ↔
      ∃ extent, Stands name path files extent ∧ r.path = path ∧ IsClosing extent r.lines := by
    intro r
    constructor
    · intro h
      obtain ⟨extent, hs⟩ := stands_of_searchTexts h
      cases (searchTexts_of_stands hs []).symm.trans h
      exact ⟨extent, hs, rfl, isClosing_toClosingBrace extent⟩
    · rintro ⟨extent, hs, rfl, hclosing⟩
      rw [locateWith, searchTexts_of_stands hs, (isClosing_toClosingBrace extent).unique hclosing]
  refine ⟨hfound, ?_, fun r h => ?_, fun files' extent hs hs' => ?_, fun d => ?_⟩
  · rintro texts rfl
    rw [← exists_stands_iff]
    constructor
    · rintro ⟨r, h⟩
      exact stands_of_searchTexts h
    · rintro ⟨extent, hs⟩
      exact ⟨_, searchTexts_of_stands hs []⟩
  · obtain ⟨extent, hs, -, hclosing⟩ := (hfound r).1 h
    obtain ⟨first, body, rfl, hdefines, hinside⟩ := hs.cons
    obtain ⟨rest, hlines, hrest⟩ := hclosing.cons
    exact ⟨first, rest, hlines, hdefines, fun l hl => hinside l (hrest.subset hl)⟩
  · rw [locateWith, locateWith, searchTexts_of_stands hs, searchTexts_of_stands hs']
  · exact searchFiles_eq_searchTexts_names d path [] files

/-- An indented definition with inner braces, which a line that merely begins like a definition
ends, behind a file that only declares the symbol. In other files it is the same. -/
theorem locate_extent_of_indented :
    let name : Text → Text := fun s => 'd' :: s
    let path := "d_f".toList
    let body := ["a:".toList, " \x7d ".toList, "\x7d".toList, "attributes #0".toList]
    let first := " define void @\"_f\"(i32 %0) \x7b".toList
    let declared := "declare void @_f(i32)\ndefine void @_g() \x7b\n\x7d\n".toList
    let defined :=
      join ['\n'] ("\x7d".toList :: first :: (body ++ ["define @_h".toList, "\x7d".toList]))
    let other := join ['\n'] (first :: (body ++ [" define void @_f() \x7b".toList]))
    let kept := ⟨path, first :: body.take 3⟩
    (Stands name path [.ok declared, .ok defined] (first :: body) ∧
      Stands name path [.ok other, .error (.cannotOpen .notFound)] (first :: body)) ∧
    (∃ text ∈ [declared, defined], ∃ l ∈ lines text, Defines name path l) ∧
    (∃ l rest, kept.lines = l :: rest ∧ Defines name path l ∧ ∀ l ∈ rest, ¬ Opens l) ∧
    locateWith name path [.ok declared, .ok defined] = .ok (.found kept) ∧
    locateWith name path [.ok other, .error (.cannotOpen .notFound)] = .ok (.found kept) := by
  intro name path body first declared defined other kept
  have he : IsExtent name path (lines defined) ["\x7d".toList] first body
      ["define @_h".toList, "\x7d".toList] :=
    ⟨by decide +kernel, by decide +kernel, by decide +kernel, by decide +kernel, by decide +kernel⟩
  have he' : IsExtent name path (lines other) [] first body [" define void @_f() \x7b".toList] :=
    ⟨by decide +kernel, by decide +kernel, by decide +kernel, by decide +kernel, by decide +kernel⟩
  have hs : Stands name path [.ok declared, .ok defined] (first :: body) :=
    .later (by decide +kernel) (.here he)
  have hs' : Stands name path [.ok other, .error (.cannotOpen .notFound)] (first :: body) :=
    .here he'
  have hclosing : IsClosing (first :: body) kept.lines := by
    have hcut : toClosingBrace (first :: body) = kept.lines := by decide +kernel
    exact hcut ▸ isClosing_toClosingBrace _
  obtain ⟨hfound, hreadable, hbegins, hsame, -⟩ :=
    locate_extent name path [.ok declared, .ok defined]
  have hkept := (hfound kept).2 ⟨_, hs, rfl, hclosing⟩
  exact ⟨⟨hs, hs'⟩, (hreadable [declared, defined] rfl).1 ⟨kept, hkept⟩, hbegins kept hkept, hkept,
    (hsame _ _ hs hs').trans hkept⟩

end Ir

end AsmLens
