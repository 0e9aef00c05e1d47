import AsmLens.Proofs.Assembly.Covering
import AsmLens.Proofs.Assembly.LineByLine
import AsmLens.Proofs.Assembly.Relocating
import AsmLens.Proofs.Text.Decimal

/-!
# Malformed directives

A directive whose numbers cannot be read is declined and kept as a directive of no special kind
(`Fragment.directive?_of_no_numeral`). The one exception is a file directive whose index is made of
digits but is no numeral, because it is too long or has a digit without a decimal value
(`Fragment.Misnumbered`): it fails, whoever reads it (`Fragment.file?_eq_error_iff`,
`Fragment.directive?_fails_iff`). So a search through texts ends with a result or a reported
failure as long as no line that it reads has such a directive, and with no result otherwise
(`Locator.Ends`, `Locator.locate_ends`).
-/

namespace AsmLens

open Text

namespace Fragment

section

variable (t : Target)

/-- The fields of a directive that are read as numbers: the index of a file; the file and the line
of a location, and its column if that is made of digits. -/
def numberFields (s : Text) : List Text :=
  let ws := words s
  let (f, l, c) := t.locFields
  if ws.head? = some t.fileDirective then ws[1]?.toList
  else if ws.head? = some t.locDirective then
    ws[f]?.toList ++ ws[l]?.toList ++ (ws[c]?.filter fun w => w.all isDigit).toList
  else []

/-- A file directive whose index is made of digits and is no numeral. -/
def Misnumbered (s : Text) : Prop :=
  ∃ index w ws, words s = t.fileDirective :: index :: w :: ws ∧ quotedTexts s ≠ [] ∧
    (∀ c ∈ index, isDigit c = true) ∧
    (maxDigits < index.length ∨ ∃ c ∈ index, decimalValue? c = none)

end

variable {t : Target} {s : Text} {loc : Option Loc} {rename : Text → Text}

/-! ## Files -/

/-- A file directive is read, or it is declined, or its index is digits and no numeral. -/
theorem file?_of_words {index w : Text} {ws : List Text}
    (hw : words s = t.fileDirective :: index :: w :: ws) :
    (∃ f, integer? index = some f.index ∧ file? t s = .ok (some f)) ∨
      (file? t s = .ok none ∧ (quotedTexts s = [] ∨ index.all isDigit = false)) ∨
      (file? t s = .error .notNumber ∧ quotedTexts s ≠ [] ∧ index.all isDigit = true ∧
        integer? index = none) := by
  unfold file?
  rw [hw]
  cases hq : quotedTexts s with
  | nil => exact .inr (.inl ⟨rfl, .inl rfl⟩)
  | cons path more =>
    by_cases hd : index.all isDigit = true
    · simp only [hd, and_self, if_true]
      cases hi : integer? index with
      | none => exact .inr (.inr ⟨rfl, List.cons_ne_nil _ _, trivial, rfl⟩)
      | some n => exact .inl ⟨_, rfl, rfl⟩
    · dsimp only
      rw [if_neg fun h => hd h.2]
      exact .inr (.inl ⟨rfl, .inr (Bool.eq_false_iff.2 hd)⟩)

/-- A file directive fails exactly if its index is made of digits and is no numeral. -/
theorem file?_eq_error_iff {e : Failure} :
    file? t s = .error e ↔ e = .notNumber ∧ Misnumbered t s := by
  have hindex : ∀ {index w : Text} {ws : List Text}, words s = t.fileDirective :: index :: w :: ws →
      (∀ c ∈ index, isDigit c = true) →
      (integer? index = none ↔ maxDigits < index.length ∨ ∃ c ∈ index, decimalValue? c = none) := by
    intro index w ws hw hd
    obtain ⟨hsolid, hne⟩ := isSolid_of_mem_words (s := s) (w := index) (by simp [hw])
    exact integer?_eq_none_iff hsolid hne hd
  constructor
  · intro h
    obtain ⟨index, w, ws, hw⟩ := words_of_file? (t := t) (s := s) (by simp [h])
    refine ⟨eq_notNumber_of_file? h, index, w, ws, hw, ?_⟩
    rcases file?_of_words hw with ⟨f, -, hf⟩ | ⟨hf, -⟩ | ⟨-, hq, hd, hi⟩
    · cases h.symm.trans hf
    · cases h.symm.trans hf
    · have hd := List.all_eq_true.1 hd
      exact ⟨hq, hd, (hindex hw hd).1 hi⟩
  · rintro ⟨rfl, index, w, ws, hw, hq, hd, hi⟩
    have hi := (hindex hw hd).2 hi
    rcases file?_of_words hw with ⟨f, hf, -⟩ | ⟨-, hno | hno⟩ | ⟨h, -⟩
    · cases hi.symm.trans hf
    · exact absurd hno hq
    · cases hno.symm.trans (List.all_eq_true.2 hd)
    · exact h

/-! ## Directives -/

/-- A directive fails exactly if it is a file directive whose index is digits and no numeral. -/
theorem directive?_fails_iff {e : Failure} :
    directive? t s = .error e ↔
      e = .notNumber ∧ Misnumbered t s ∧ startsWith ['.'] s = true := by
  rw [directive?_eq_error_iff, file?_eq_error_iff]
  constructor
  · rintro ⟨⟨hs, -⟩, he, hm⟩
    exact ⟨he, hm, hs⟩
  · rintro ⟨he, hm, hs⟩
    obtain ⟨index, w, ws, hw, -⟩ := id hm
    exact ⟨⟨hs, isLabelForm_of_words hs hw⟩, he, hm⟩

theorem locDirective_ne_fileDirective (t : Target) : t.locDirective ≠ t.fileDirective := by
  unfold Target.locDirective Target.fileDirective
  cases t.isWindows
  · decide
  · decide

/-- The numeral of a file directive is the word behind its name. -/
theorem numberFields_of_file {w : Text} {ws : List Text}
    (hw : words s = t.fileDirective :: w :: ws) : numberFields t s = [w] := by
  simp [numberFields, hw]

/-- A location with a number that cannot be read is none. -/
theorem loc?_of_no_numeral {w : Text} (hw : w ∈ numberFields t s) (hn : integer? w = none) :
    loc? t s = none := by
  have hfield : ∀ {i : Nat}, (words s)[i]? = some w → ((words s)[i]? >>= integer?) = none := by
    intro i hi
    rw [hi]
    exact hn
  unfold numberFields at hw
  unfold loc?
  dsimp only at hw ⊢
  split at hw
  · rename_i hfile
    rw [hfile, if_neg fun h => locDirective_ne_fileDirective t (Option.some.inj h).symm]
  · split at hw
    · rename_i hloc
      rw [if_pos hloc]
      simp only [List.mem_append, Option.mem_toList, Option.filter_eq_some_iff] at hw
      rcases hw with (hf | hl) | ⟨hc, hd⟩
      · rw [hfield hf]
        rfl
      · rw [hfield hl]
        cases (words s)[t.locFields.1]? >>= integer? <;> rfl
      · rw [hc]
        simp only [hd, if_true, hn]
        cases (words s)[t.locFields.1]? >>= integer? with
        | none => rfl
        | some f => cases (words s)[t.locFields.2.1]? >>= integer? <;> rfl
    · cases hw

/-- A file with an index that cannot be read is none, unless it fails. -/
theorem file?_of_no_numeral {w : Text} (hw : w ∈ numberFields t s) (hn : integer? w = none)
    (hm : ¬ Misnumbered t s) : file? t s = .ok none := by
  apply Classical.byContradiction
  intro hne
  obtain ⟨index, v, vs, hws⟩ := words_of_file? hne
  rw [numberFields_of_file hws, List.mem_singleton] at hw
  rcases file?_of_words hws with ⟨f, hi, -⟩ | ⟨hf, -⟩ | ⟨hf, -⟩
  · rw [← hw, hn] at hi
    cases hi
  · exact hne hf
  · exact hm (file?_eq_error_iff.1 hf).2

/-- A directive with a number that cannot be read is one of no special kind, unless it fails. -/
theorem directive?_of_no_numeral {w : Text} (hs : startsWith ['.'] s = true)
    (hl : isLabelForm s = false) (hw : w ∈ numberFields t s) (hn : integer? w = none)
    (hm : ¬ Misnumbered t s) : directive? t s = .ok (some (.directive s)) := by
  rw [directive?_eq hs hl, file?_of_no_numeral hw hn hm, map_ok, Option.elim_none, directiveOr,
    loc?_of_no_numeral hw hn]

end Fragment

namespace Locator

/-! ## Reading lines -/

/-- No line is a file directive that fails. -/
def Sound (t : Target) (ls : List Text) : Prop :=
  ∀ l ∈ ls, ¬ Fragment.Misnumbered t (Fragments.ofLine t.commentMarkers l).node

/-- A failure that a search for `path` reports: for its body, or for two paths of one index. -/
def IsSearchFailure (path : Text) (e : Failure) : Prop :=
  IsBodyFailure path e ∨ ∃ index first second, e = .conflictingFile index first second

theorem not_isSearchFailure_notNumber {path : Text} : ¬ IsSearchFailure path .notNumber := by
  rintro ((⟨_, _, h | ⟨_, h⟩⟩ | ⟨_, _, h⟩) | ⟨_, _, _, h⟩) <;> cases h

/-- How a step that reads these lines ends: with a result if the lines are sound, with a reported
failure, or for a file directive that fails. -/
inductive Ends (t : Target) (path : Text) (ls : List Text) {α : Type} :
    Except Failure α → Prop where
  | ok {a} (sound : Sound t ls) : Ends t path ls (.ok a)
  | reported {e} (failure : IsSearchFailure path e) : Ends t path ls (.error e)
  | stopped (unsound : ¬ Sound t ls) : Ends t path ls (.error .notNumber)

variable {t : Target} {name : Text → Text} {path : Text} {ls ls' : List Text}

theorem sound_nil : Sound t [] :=
  List.forall_mem_nil _

theorem sound_append_iff : Sound t (ls ++ ls') ↔ Sound t ls ∧ Sound t ls' :=
  List.forall_mem_append

section

variable {α β : Type} {x : Except Failure α}

/-- What is read before stays read. -/
theorem Ends.after (sound : Sound t ls) (h : Ends t path ls' x) : Ends t path (ls ++ ls') x := by
  cases h with
  | ok sound' => exact .ok (sound_append_iff.2 ⟨sound, sound'⟩)
  | reported failure => exact .reported failure
  | stopped unsound => exact .stopped fun h => unsound (sound_append_iff.1 h).2

/-- Two steps one after the other: their lines come one after the other. -/
theorem Ends.bind {f : α → Except Failure β} (hx : Ends t path ls x)
    (hf : ∀ a, x = .ok a → Ends t path ls' (f a)) : Ends t path (ls ++ ls') (x >>= f) := by
  cases hx with
  | ok sound => exact (hf _ rfl).after sound
  | reported failure => exact .reported failure
  | stopped unsound => exact .stopped fun h => unsound (sound_append_iff.1 h).1

/-- A step that reads nothing more. -/
theorem Ends.bind_nil {f : α → Except Failure β} (hx : Ends t path ls x)
    (hf : ∀ a, Ends t path [] (f a)) : Ends t path ls (x >>= f) := by
  have h := hx.bind fun a _ => hf a
  rwa [List.append_nil] at h

theorem Ends.map (hx : Ends t path ls x) (g : α → β) : Ends t path ls (x.map g) := by
  cases hx with
  | ok sound => exact .ok sound
  | reported failure => exact .reported failure
  | stopped unsound => exact .stopped unsound

end

/-- A line fails if and only if its file index looks like a number and is none. -/
theorem declaration?_eq_error_iff {line : Text} {e : Failure} :
    declaration? t line = .error e ↔ e = .notNumber ∧ ¬ Sound t [line] := by
  rw [declaration?, Fragment.file?_eq_error_iff, Sound, List.forall_mem_singleton, not_not]

theorem ends_declaration? (path line : Text) : Ends t path [line] (declaration? t line) := by
  cases h : declaration? t line with
  | error e =>
    obtain ⟨rfl, hunsound⟩ := declaration?_eq_error_iff.1 h
    exact .stopped hunsound
  | ok f =>
    refine .ok (Classical.byContradiction fun hunsound => ?_)
    cases h.symm.trans (declaration?_eq_error_iff.2 ⟨rfl, hunsound⟩)

theorem ends_declareAll (path : Text) (fs : List FileEntry) (table : FileTable) :
    Ends t path [] (table.declareAll fs) := by
  induction fs generalizing table with
  | nil => exact .ok sound_nil
  | cons f fs ih =>
    have hdeclare : Ends t path [] (table.declare f) := by
      unfold FileTable.declare
      split
      · exact .ok sound_nil
      · split
        · exact .ok sound_nil
        · exact .reported (.inr ⟨_, _, _, rfl⟩)
    rw [FileTable.declareAll_cons]
    exact hdeclare.bind fun table _ => ih table

/-- Declaring line by line fails in no other way. -/
theorem ends_declareLines (path : Text) (table : FileTable) (ls : List Text) :
    Ends t path ls (declareLines t table ls) := by
  induction ls generalizing table with
  | nil => exact .ok sound_nil
  | cons line ls ih =>
    have hline : Ends t path [line] (declareLine t table line) := by
      rw [declareLine_eq]
      exact (ends_declaration? path line).bind fun f _ => ends_declareAll path f.toList table
    rw [declareLines_cons]
    exact hline.bind fun table _ => ih table

/-! ## Bodies -/

/-- A line of a body that is read is sound. -/
theorem sound_of_readLine {p p' : Body.Progress} {offset : Nat} {raw : Text}
    {ss : List Statement} (ht : IsTrimmed raw)
    (h : Body.readLine t path name p offset raw = .ok (p', ss)) : Sound t [raw] := by
  apply Classical.byContradiction
  intro hunsound
  have hfile := declaration?_eq_error_iff.2 ⟨rfl, hunsound⟩
  rcases Body.readLine_cases h with ⟨hn, -, -⟩ | ⟨-, s, hs, -⟩
  · rw [Body.parts, ht.trim_eq] at hn
    cases hfile.symm.trans (declaration?_of_no_node hn)
  · have hc := (Body.readNode_eq_ok_iff.1 hs).1
    rw [Body.parts, ht.trim_eq] at hc
    cases hc.symm.trans
      ((Fragment.classify_error_iff_of_isTrimmed (Fragments.isTrimmed_node ht)).2 hfile)

/-- Lines that were read have no such index. -/
theorem sound_of_readLines {p p' : Body.Progress} {offset : Nat} {ss : List Statement}
    (ht : ∀ l ∈ ls, IsTrimmed l)
    (h : Body.readLines t path name p offset ls = .ok (p', ss)) : Sound t ls := by
  induction ls generalizing p offset ss with
  | nil => exact sound_nil
  | cons raw ls ih =>
    obtain ⟨ht, hts⟩ := List.forall_mem_cons.1 ht
    obtain ⟨q, ss₁, ss₂, h₁, h₂, -⟩ := Body.readLines_cons_eq_ok.1 h
    exact sound_append_iff.2 ⟨sound_of_readLine ht h₁, ih hts h₂⟩

/-- Reading a body fails in no other way. -/
theorem ends_read (name : Text → Text) (path : Text) (ht : ∀ l ∈ ls, IsTrimmed l) :
    Ends t path ls (Body.read t path name ls) := by
  cases h : Body.read t path name ls with
  | ok f =>
    obtain ⟨p, ss, hlines, -⟩ := Body.read_eq_ok_iff.1 h
    exact .ok (sound_of_readLines ht hlines)
  | error e =>
    rcases Body.readLines_error (Body.read_eq_error_iff.1 h) with hline | ⟨raw, hraw, hfile⟩
    · exact .reported (.inl (.inl hline))
    · rw [Body.parts, (ht raw hraw).trim_eq] at hfile
      obtain ⟨rfl, hm⟩ := Fragment.file?_eq_error_iff.1 hfile
      exact .stopped fun hsound => hsound raw hraw hm

theorem ends_coverLocations (f : Function) (table : FileTable) :
    Ends t f.id [] (coverLocations f table) := by
  refine (ends_declareAll f.id _ table).bind fun table' _ => ?_
  dsimp only
  split
  · exact .ok sound_nil
  · exact .reported (.inl (.inr ⟨_, _, rfl⟩))

/-- Completing a function reads its body, and the lines after it that are read for its file. -/
theorem ends_complete (name : Text → Text) (path : Text) (table : FileTable) {rest : List Text}
    (ht : ∀ l ∈ rest, IsTrimmed l) :
    Ends t path
      (bodyLines t rest ++ match Body.read t path name (bodyLines t rest) with
        | .ok f => linesForFile t f table (linesAfterBody t rest)
        | .error _ => [])
      (complete t name path table rest) := by
  have hbody : ∀ l ∈ bodyLines t rest, IsTrimmed l := fun l hl =>
    ht l ((List.takeWhile_sublist _).subset hl)
  refine (ends_read name path hbody).bind fun f hf => ?_
  have hid : f.id = path := by
    obtain ⟨p, ss, -, rfl⟩ := Body.read_eq_ok_iff.1 hf
    rfl
  rw [hf, settleFile_eq]
  refine ((ends_declareLines path table _).map _).bind_nil fun r => ?_
  rw [← hid]
  exact ends_coverLocations { f with file := r.2 } r.1

/-! ## Files -/

/-- A scan ends with a result, with a reported failure, or for a file directive that fails. -/
theorem ends_scanWith (name : Text → Text) (path : Text) (ht : ∀ l ∈ ls, IsTrimmed l) :
    Ends t path (scannedLines t name path ls) (scanWith t name path ls) := by
  rw [scanWith_eq, scannedLines]
  cases hrest : linesAfter? t name path ls with
  | none =>
    rw [linesBefore_of_linesAfter? hrest]
    exact (ends_declareLines path [] ls).bind_nil fun _ => .ok sound_nil
  | some rest =>
    dsimp only
    rw [List.append_assoc]
    refine (ends_declareLines path [] _).bind fun table htable => ?_
    rw [htable]
    have hc := ends_complete (t := t) name path table fun l hl => ht l (mem_linesAfter? hrest l hl)
    cases hread : Body.read t path name (bodyLines t rest) with
    | error e =>
      rw [hread] at hc
      exact hc.map _
    | ok f =>
      rw [hread] at hc
      exact hc.map _

/-- A text that a search passes over is sound. -/
theorem sound_of_passes {d d' : Demangler} {texts names : List Text} {text : Text}
    (h : Passes (scan path) d texts names d') (hmem : text ∈ texts) :
    Sound d.target (fileLines text) := by
  obtain ⟨d₁, noted, d₂, he, hscan⟩ := h.absent_of_mem (extends_scan path) hmem
  obtain ⟨-, table, htable⟩ := surveyed_of_scan hscan
  have hends := ends_declareLines (t := d₁.target) path [] (fileLines text)
  rw [htable, he.target] at hends
  cases hends
  assumption

/-- A scan with a demangler ends as one by the names that it has learnt, or what the tool writes is
no text. -/
theorem ends_scan {d d' : Demangler} {text : Text} {x : Except Failure (Scanned Found)}
    (h : scan path d text = (x, d')) :
    (x = .error .notText ∧ d.MayGarble) ∨
      Ends d.target path (scannedLines d.target d'.name path (fileLines text)) x := by
  rcases scan_cases path d text with ⟨_, hscan, -, hmay⟩ | ⟨d₁, -, -, hscan⟩
  · exact .inl ⟨(Prod.mk.inj (h.symm.trans hscan)).1, hmay⟩
  · obtain ⟨rfl, rfl⟩ := Prod.mk.inj (h.symm.trans hscan)
    exact .inr (ends_scanWith _ path (isTrimmed_fileLines text))

/-- Among files that can all be read, the one searched last can be read. -/
theorem eq_append_of_map_ok {texts earlier : List Text} {file : Except Failure Text}
    {later : List (Except Failure Text)} (h : texts.map .ok = earlier.map .ok ++ file :: later) :
    ∃ text rest, file = .ok text ∧ texts = earlier ++ text :: rest := by
  obtain ⟨texts₁, texts₂, rfl, h₁, h₂⟩ := List.map_eq_append_iff.1 h
  obtain ⟨text, rest, rfl, rfl, -⟩ := List.map_eq_cons_iff.1 h₂
  rw [List.map_inj_right fun _ _ => Except.ok.inj] at h₁
  exact ⟨text, rest, rfl, by rw [h₁]⟩

/-- What a search that ends with a scan comes to. -/
def located : Scanned Found → Located Found
  | .found r => .found r
  | .absent names => .notFound names

/-- A search through texts passes over sound ones. It ends behind them all, or at the first text
that has the function or cannot be scanned, unless what the tool writes is no text. -/
theorem locate_ends (d : Demangler) (path : Text) (texts : List Text) :
    let r := locate d path (texts.map .ok)
    ((∃ names, r.1 = .ok (.notFound names)) ∧ ∀ text ∈ texts, Sound d.target (fileLines text)) ∨
      ∃ earlier text later, texts = earlier ++ text :: later ∧
        (∀ u ∈ earlier, Sound d.target (fileLines u)) ∧ (∀ names, r.1 ≠ .ok (.notFound names)) ∧
          ((r.1 = .error .notText ∧ d.MayGarble) ∨
            Ends d.target path (scannedLines d.target r.2.name path (fileLines text)) r.1) := by
  rcases h : locate d path (texts.map .ok) with ⟨e | ⟨r | names⟩, d'⟩
  · obtain ⟨earlier, names, d₁, file, later, hfiles, hp, hfile⟩ := searchFiles_error h
    obtain ⟨text, rest, rfl, rfl⟩ := eq_append_of_map_ok hfiles
    obtain ⟨hno, -⟩ | ⟨text, ⟨⟩, hscan⟩ := hfile
    · cases hno
    · have he := hp.extends (extends_scan path)
      refine .inr ⟨earlier, text, rest, rfl, fun u hu => sound_of_passes hp hu, by simp, ?_⟩
      rcases ends_scan hscan with ⟨⟨⟩, hmay⟩ | hends
      · exact .inl ⟨rfl, he.mayGarble hmay⟩
      · rw [he.target] at hends
        exact .inr (hends.map located)
  · obtain ⟨earlier, names, d₁, text, later, hfiles, hp, hscan⟩ := searchFiles_found h
    obtain ⟨text, rest, ⟨⟩, rfl⟩ := eq_append_of_map_ok hfiles
    rcases ends_scan hscan with ⟨⟨⟩, -⟩ | hends
    rw [(hp.extends (extends_scan path)).target] at hends
    exact .inr ⟨earlier, text, rest, rfl, fun u hu => sound_of_passes hp hu, by simp,
      .inr (hends.map located)⟩
  · obtain ⟨texts', noted, hfiles, hp, -⟩ := searchFiles_notFound_iff.1 h
    rw [List.map_inj_right fun _ _ => Except.ok.inj] at hfiles
    subst hfiles
    exact .inl ⟨⟨names, rfl⟩, fun text ht => sound_of_passes hp ht⟩

end Locator

/-- **Only a file directive whose index is digits and no numeral stops a reader.** Every other
directive with a number that cannot be read is kept as one of no special kind. So a search through
texts whose read lines have no such directive ends with a result or a failure that is reported, and
one that reads such a directive has no result. Apart from it a search stops only for a demangling
tool that writes what is no text. -/
theorem only_misnumbered_files_stop (t : Target) :
    (∀ s e, Fragment.file? t s = .error e ↔ e = .notNumber ∧ Fragment.Misnumbered t s) ∧
    (∀ s e, Fragment.directive? t s = .error e ↔
      e = .notNumber ∧ Fragment.Misnumbered t s ∧ startsWith ['.'] s = true) ∧
    (∀ s loc rename e, Fragment.classify t s loc rename = .error e ↔
      e = .notNumber ∧ Fragment.Misnumbered t s ∧ startsWith ['.'] s = true) ∧
    (∀ s loc rename, startsWith ['.'] s = true → Fragment.isLabelForm s = false →
      (∃ w ∈ Fragment.numberFields t s, integer? w = none) → ¬ Fragment.Misnumbered t s →
        Fragment.classify t s loc rename = .ok (some (.directive s))) ∧
    ∀ (d : Demangler), d.target = t → ∀ path texts,
      let r := Locator.locate d path (texts.map .ok)
      ((∃ names, r.1 = .ok (.notFound names)) ∧
          ∀ text ∈ texts, Locator.Sound t (Locator.fileLines text)) ∨
        ∃ earlier text later, texts = earlier ++ text :: later ∧
          (∀ u ∈ earlier, Locator.Sound t (Locator.fileLines u)) ∧
            (∀ names, r.1 ≠ .ok (.notFound names)) ∧
              ((r.1 = .error .notText ∧ d.MayGarble) ∨
                Locator.Ends t path
                  (Locator.scannedLines t r.2.name path (Locator.fileLines text)) r.1) := by
  refine ⟨fun s e => Fragment.file?_eq_error_iff, fun s e => Fragment.directive?_fails_iff,
    fun s loc rename e => ?_, fun s loc rename hs hl hw hm => ?_, fun d ht path texts => ?_⟩
  · rw [Fragment.classify_eq_error_iff, Fragment.directive?_fails_iff]
  · obtain ⟨w, hw, hn⟩ := hw
    exact Fragment.classify_of_directive? (Fragment.directive?_of_no_numeral hs hl hw hn hm)
  · rw [← ht]
    exact Locator.locate_ends d path texts

/-- A superscript is a digit and no decimal digit: with one as its index a file stops the search, a
location does not. -/
theorem only_misnumbered_files_stop_at_superscript :
    let t : Target := ⟨"x86_64-unknown-linux-gnu".toList⟩
    let d := Demangler.new t none fun _ _ => .notStarted []
    let text := "_f:\n.loc 1 ²\n.file ² \"a.rs\"\n.cfi_endproc\n".toList
    let r := Locator.locate d "_f".toList [.ok text]
    Fragment.classify t ".loc 1 ²".toList none id = .ok (some (.directive ".loc 1 ²".toList)) ∧
      d.target = t ∧ r.1 = .error .notNumber ∧
        ¬ Locator.Sound t
          (Locator.scannedLines t r.2.name "_f".toList (Locator.fileLines text)) := by
  intro t d text r
  have hwords : words ".loc 1 ²".toList = [".loc".toList, "1".toList, "²".toList] := by
    decide +kernel
  have hsound : ¬ Fragment.Misnumbered t ".loc 1 ²".toList := by
    rintro ⟨index, w, ws, hw, -⟩
    rw [hwords] at hw
    exact absurd (List.cons.inj hw).1 (by decide +kernel)
  have hr : r.1 = .error .notNumber := by decide +kernel
  refine ⟨(only_misnumbered_files_stop t).2.2.2.1 _ _ _ rfl (by decide +kernel)
    ⟨"²".toList, by decide +kernel, by decide +kernel⟩ hsound, rfl, hr, ?_⟩
  rcases (only_misnumbered_files_stop t).2.2.2.2 d rfl "_f".toList [text] with
    ⟨⟨names, hno⟩, -⟩ | ⟨earlier, text', later, htexts, -, -, ⟨hno, -⟩ | hends⟩
  · cases hr.symm.trans hno
  · cases hr.symm.trans hno
  · have htext : text' = text := by
      cases earlier with
      | nil => exact (List.cons.inj htexts).1.symm
      | cons u us => simp at htexts
    have hends : Locator.Ends t "_f".toList
        (Locator.scannedLines t r.2.name "_f".toList (Locator.fileLines text')) r.1 := hends
    rw [hr, htext] at hends
    cases hends with
    | reported failure => exact absurd failure Locator.not_isSearchFailure_notNumber
    | stopped unsound => exact unsound

/-- Digits of an index need not make a numeral, so a search may end with no result and no reported
failure. -/
theorem superscript_index_fails :
    let t : Target := ⟨"x86_64-unknown-linux-gnu".toList⟩
    let d := Demangler.new t none fun _ _ => .notStarted []
    Fragment.file? t ".file ² \"a.rs\"".toList = .error .notNumber ∧
      Fragment.classify t ".file ² \"a.rs\"".toList none id = .error .notNumber ∧
      (Locator.locate d "f".toList [.ok ".file ² \"a.rs\"\n".toList]).1 = .error .notNumber ∧
        ¬ Locator.IsSearchFailure "f".toList .notNumber := by
  intro t d
  exact ⟨by decide +kernel, by decide +kernel, by decide +kernel,
    Locator.not_isSearchFailure_notNumber⟩

end AsmLens
