import AsmLens.Proofs.Listing.Encoding
import AsmLens.Proofs.Listing.SourceLines
import AsmLens.Proofs.Questions
import AsmLens.Session

/-!
# What a run shows of a function

Once the sources are told, showing a function only prints (`prints_showFunction`). As JSON the whole
listing is printed, and no terminal changes it (`showFunction_json`). Without source lines, because
they are not asked for or because some are not there, what is printed is told by the function, and
two runs that differ in what source files there are print the same (`showFunction_plain`).
-/

namespace AsmLens

open Text

namespace Session

variable {t t' : Toolchain} {f : Found} {j j' : Journal} {c c' : Correlation}

/-- Tells the sources of a function that was found. -/
def correlation (t : Toolchain) (f : Found) : Action Correlation := do
  let directory ← Action.ofExcept t.directory
  Correlation.ofFunction t.workspace.files t.sysroot t.options.sourceGap (some directory) f.function
    f.table

/-- A source path of the function, after resolution against the manifest's directory, is not there
and leads into the standard library. -/
def RefersToDisplaced (t : Toolchain) (f : Found) : Prop :=
  ∃ directory, t.directory = .ok directory ∧
    Correlation.IsDisplaced t.workspace.files (some directory) f.function f.table

/-- Shows a function whose sources are told. -/
def showCorrelated (t : Toolchain) (f : Found) (c : Correlation) : Action Int := do
  if !c.isComplete && t.options.rust then
    Action.warn .sourcesHidden
    printListing t t.options.hideSources f.function c.sources
  else
    printListing t t.options f.function c.sources
  return 0

/-- The options that a function is shown with: without source lines if not all of them are there. -/
def shownOptions (t : Toolchain) (c : Correlation) : Options :=
  if !c.isComplete && t.options.rust then t.options.hideSources else t.options

/-- A listing as it is sent to the terminal. -/
def listingText (t : Toolchain) (o : Options) (f : Function) (s : Sources) : Text :=
  if o.json then Console.print (shade t) [⟨Listing.toJson f s, none⟩]
  else Listing.View.print ⟨t.target, t.workspace.files.cwd, o⟩ (shade t) f s

/-- A listing without source lines as it is sent to the terminal. -/
def plainText (t : Toolchain) (f : Function) : Text :=
  let v : Listing.View := ⟨t.target, t.workspace.files.cwd, t.options.hideSources⟩
  (v.header f :: (v.statementLines f).map Prod.snd).flatMap (Console.print (shade t))

/-- The action ends with exit code 0 after it has added a text to the output. -/
structure Prints (a : Action Int) (j : Journal) (text : Text) : Prop where
  code : (a.outcome j).1 = .ok 0
  output : (a.outcome j).2.output = j.output ++ text

/-- Two toolchains that may differ in all files and in what the tools answer, and in whether source
lines are asked for; not in what else a listing depends on. -/
structure SameButSources (t t' : Toolchain) : Prop where
  target : t.target = t'.target
  cwd : t.workspace.files.cwd = t'.workspace.files.cwd
  environment : t.workspace.environment = t'.workspace.environment
  options : t.options.hideSources = t'.options.hideSources

/-! ## What is printed -/

/-- The sources are told before anything is shown. -/
theorem showFunction_eq (t : Toolchain) (f : Found) :
    showFunction t f = correlation t f >>= showCorrelated t f := by
  rw [showFunction, correlation, bind_assoc]
  rfl

/-- Telling the sources puts no question, or that for the sysroot if a source path is displaced. -/
theorem asks_correlation (t : Toolchain) (f : Found) :
    t.Asks (correlation t f) [] ∨
      t.Asks (correlation t f) [.sysroot] ∧ RefersToDisplaced t f := by
  unfold correlation
  cases hdirectory : t.directory with
  | error e => exact .inl ⟨_, (Toolchain.Does.ofExcept t _).bind_error⟩
  | ok directory =>
    rcases Correlation.asks_ofFunction t t.workspace.files t.options.sourceGap (some directory)
      f.function f.table with ⟨r, hr⟩ | ⟨⟨r, hr⟩, hdisplaced⟩
    · exact .inl ⟨r, (Toolchain.Does.ofExcept t (.ok directory)).bind hr⟩
    · exact .inr ⟨⟨r, (Toolchain.Does.ofExcept t (.ok directory)).bind hr⟩, directory, hdirectory,
        hdisplaced⟩

/-- A step that gives a result and writes nothing goes before what is printed. -/
theorem Prints.bind {α : Type} {a : Action α} {g : α → Action Int} {x : α} {text : Text}
    {qs : List Query} (ha : t.Asks a qs) (h : (a.outcome j).1 = .ok x)
    (hg : Prints (g x) (a.outcome j).2 text) : Prints (a >>= g) j text := by
  obtain ⟨r, ha⟩ := ha
  constructor
  · rw [Action.outcome_bind_of_ok h]
    exact hg.code
  · rw [Action.outcome_bind_of_ok h, hg.output, ha.output, List.append_nil]

theorem prints_printListing (t : Toolchain) (o : Options) (f : Function) (s : Sources)
    (j : Journal) : Prints (do printListing t o f s; return 0) j
      (Terminal.shown t.workspace (listingText t o f s)) := by
  unfold printListing listingText
  split
  · exact ⟨rfl, rfl⟩
  · exact ⟨rfl, rfl⟩

/-- Once the sources are told, the listing is printed. -/
theorem prints_showFunction (h : ((correlation t f).outcome j).1 = .ok c) :
    Prints (showFunction t f) j (Terminal.shown t.workspace
      (listingText t (shownOptions t c) f.function c.sources)) := by
  rw [showFunction_eq]
  obtain ⟨qs, hasks⟩ : ∃ qs, t.Asks (correlation t f) qs :=
    (asks_correlation t f).elim (fun hc => ⟨_, hc⟩) fun hc => ⟨_, hc.1⟩
  refine .bind hasks h ?_
  unfold showCorrelated shownOptions
  split
  · exact Prints.bind (t := t) ⟨_, .warn t _⟩ rfl (prints_printListing ..)
  · exact prints_printListing ..

/-! ## JSON -/

/-- As JSON the listing is the text of the value and a line feed, in every coloring. -/
theorem listingText_of_json (hjson : t.options.json = true) :
    listingText t (shownOptions t c) f.function c.sources =
      Listing.toJson f.function c.sources ++ ['\n'] := by
  have hoptions : (shownOptions t c).json = true := by
    unfold shownOptions
    split
    · exact hjson
    · exact hjson
  rw [listingText, if_pos hoptions, Listing.print_toJson]

/-- **JSON output loses nothing.** Two listings have the same JSON text if and only if their nodes
are the same up to the flags of instructions, whatever characters these hold; and a run that is
asked for JSON and whose sources are told prints that text and a line feed, and nothing else, if the
terminal shows anything at all. -/
theorem showFunction_json :
    (∀ (f f' : Function) (s s' : Sources), Listing.toJson f s = Listing.toJson f' s' ↔
      (Listing.nodes f s).map Node.unflagged = (Listing.nodes f' s').map Node.unflagged) ∧
    ∀ (t : Toolchain) (f : Found) (j : Journal) (c : Correlation), t.options.json = true →
      ((correlation t f).outcome j).1 = .ok c →
      Prints (showFunction t f) j (Terminal.shown t.workspace
        (Listing.toJson f.function c.sources ++ ['\n'])) ∧
      (Terminal.isBlind t.workspace = false →
        Prints (showFunction t f) j (Listing.toJson f.function c.sources ++ ['\n'])) := by
  refine ⟨fun f f' s s' => Listing.toJson_eq_iff, fun t f j c hjson hc => ?_⟩
  have hprints := prints_showFunction hc
  rw [listingText_of_json hjson] at hprints
  refine ⟨hprints, fun hsees => ?_⟩
  rwa [Terminal.shown, hsees, if_neg Bool.false_ne_true] at hprints

/-- A tab, a quote, a backslash, a bell and a character outside the first plane. -/
theorem showFunction_json_of_escapes :
    let t : Toolchain :=
      ⟨⟨⟨"/".toList, [], [], []⟩, [], [], ⟨[], []⟩, [], fun _ _ => .finished 0 [] [],
        fun _ => .finished 0 [] [], fun _ => 1⟩, { Options.standard with json := true }, ⟨[]⟩⟩
    let f : Found :=
      ⟨⟨[], none, none, [.comment ['\t', '"', '\\', '\x07', Char.ofNat 0x1f600]]⟩, []⟩
    let text := "[\n  \x7b\n    \"Asm\": \x7b\n      \"Comment\": \x7b\n        \"string\": ".toList ++
      "\"\\t\\\"\\\\\\u0007\\ud83d\\ude00\"\n      \x7d\n    \x7d\n  \x7d\n]\n".toList
    (t.options.json = true ∧ ((correlation t f).outcome .empty).1 = .ok ⟨[], []⟩ ∧
      Terminal.isBlind t.workspace = false) ∧ Prints (showFunction t f) .empty text := by
  intro t f text
  have hc : ((correlation t f).outcome .empty).1 = .ok ⟨[], []⟩ := rfl
  have htext : Listing.toJson f.function [] ++ ['\n'] = text := by decide +kernel
  refine ⟨⟨rfl, hc, by decide +kernel⟩, ?_⟩
  rw [← htext]
  exact (showFunction_json.2 t f .empty _ rfl hc).2 (by decide +kernel)

/-! ## Without source lines -/

/-- Without source lines the listing is told by the function. -/
theorem listingText_of_hidden (hjson : t.options.json = false)
    (hplain : t.options.rust = false ∨ c.isComplete = false) :
    listingText t (shownOptions t c) f.function c.sources = plainText t f.function := by
  have hoptions : shownOptions t c = t.options.hideSources := by
    unfold shownOptions
    rcases hplain with h | h
    · rw [h, Bool.and_false, if_neg Bool.false_ne_true, Options.hideSources, ← h]
    · cases hrust : t.options.rust with
      | true => simp [h]
      | false => simp [Options.hideSources, ← hrust]
  have hhidden : t.options.hideSources.json = false := hjson
  rw [hoptions, listingText, hhidden, if_neg Bool.false_ne_true, Listing.View.print,
    Listing.lines_of_hidden rfl, plainText]

end Session

namespace Terminal

variable {w w' : Workspace}

theorem coloring_congr (h : w.environment = w'.environment) : coloring w = coloring w' := by
  cases w
  cases w'
  cases h
  rfl

theorem isBlind_congr (h : w.environment = w'.environment) : isBlind w = isBlind w' := by
  cases w
  cases w'
  cases h
  rfl

end Terminal

namespace Session

variable {t t' : Toolchain} {f : Found} {j j' : Journal} {c c' : Correlation}

namespace SameButSources

/-- The listing without source lines does not depend on the sources. -/
theorem plainText_eq (h : SameButSources t t') (f : Function) :
    Terminal.shown t.workspace (plainText t f) = Terminal.shown t'.workspace (plainText t' f) := by
  have hcolor : t.options.color = t'.options.color :=
    (congrArg Options.color h.options : t.options.hideSources.color = _)
  rw [Terminal.shown, Terminal.shown, Terminal.isBlind_congr h.environment, plainText, plainText,
    shade, shade, Terminal.coloring_congr h.environment, hcolor, h.target, h.cwd, h.options]

end SameButSources

/-- **The plain listing does not depend on the sources.** Two runs whose sources are told, and that
show none of them because they were not asked for or not all there, print the same text for the
same function, told by the function alone, and end well. So does the run that does not ask for
source lines in the first place. -/
theorem showFunction_plain (h : SameButSources t t') (hjson : t.options.json = false)
    (hc : ((correlation t f).outcome j).1 = .ok c)
    (hc' : ((correlation t' f).outcome j').1 = .ok c')
    (hplain : t.options.rust = false ∨ c.isComplete = false)
    (hplain' : t'.options.rust = false ∨ c'.isComplete = false) :
    let text := Terminal.shown t.workspace (plainText t f.function)
    Prints (showFunction t f) j text ∧ Prints (showFunction t' f) j' text ∧
      Prints (showFunction { t with options := t.options.hideSources } f) j text := by
  intro text
  have hjson' : t'.options.json = false := (congrArg Options.json h.options).symm.trans hjson
  have hfirst := prints_showFunction hc
  have hsecond := prints_showFunction hc'
  rw [listingText_of_hidden hjson hplain] at hfirst
  rw [listingText_of_hidden hjson' hplain', ← h.plainText_eq] at hsecond
  refine ⟨hfirst, hsecond, ?_⟩
  -- Telling the sources does not depend on whether they are asked for.
  let u : Toolchain := { t with options := t.options.hideSources }
  have hu : ((correlation u f).outcome j).1 = .ok c := hc
  have hthird := prints_showFunction hu
  rwa [listingText_of_hidden (t := u) hjson (.inl rfl)] at hthird

/-- One file is there and another is not, so the source lines asked for are left out; where both are
there, and the first has another text, they are not asked for. -/
theorem showFunction_plain_of_missing :
    let toolchain (rust : Bool) (files : List (Place × List UInt8)) : Toolchain :=
      ⟨⟨⟨"/w".toList, files, [], []⟩, [], [], ⟨[], []⟩, [], fun _ _ => .finished 0 [] [],
        fun _ => .finished 0 [] [], fun _ => 1⟩, { Options.standard with rust }, ⟨[]⟩⟩
    let first : Place := ["w".toList, "a.rs".toList]
    let second : Place := ["w".toList, "b.rs".toList]
    let partly := toolchain true [(first, encode "fn f() \x7b\n".toList)]
    let wholly := toolchain false [(first, encode "fn g()\n".toList), (second, encode ['\n'])]
    let f : Found :=
      ⟨⟨"f".toList, none, none, [.label "x".toList (some ⟨1, 1, 0⟩),
          .instruction ⟨"ret".toList, [], some ⟨2, 1, 0⟩, false, false⟩]⟩,
        [(1, ⟨"a.rs".toList, 1⟩), (2, ⟨"b.rs".toList, 2⟩)]⟩
    let text := "f:\nx:\n ret\n".toList
    (∃ c c', ((correlation partly f).outcome .empty).1 = .ok c ∧ c.isComplete = false ∧
      ((correlation wholly f).outcome .empty).1 = .ok c' ∧ c'.isComplete = true) ∧
    Prints (showFunction partly f) .empty text ∧ Prints (showFunction wholly f) .empty text ∧
      Prints (showFunction { partly with options := partly.options.hideSources } f) .empty text := by
  intro toolchain first second partly wholly f text
  let asked : Sources :=
    [(1, ⟨⟨"a.rs".toList, 1⟩, [(1, none)]⟩), (2, ⟨⟨"b.rs".toList, 2⟩, [(1, none)]⟩)]
  have hrefs : Source.references f.function = [(1, [1]), (2, [1])] := by decide +kernel
  have hgaps : Source.fillGaps 5 [1] = [1] :=
    Source.fillGaps_eq (fun _ => Iff.rfl) (by decide) 5
  have hasked : Correlation.wanted 5 f.function f.table = .ok asked := by
    rw [Correlation.wanted, hrefs]
    simp only [List.mapM_cons, List.mapM_nil, hgaps]
    rfl
  have hrun : ∀ rust files, ((correlation (toolchain rust files) f).outcome .empty).1 =
      Correlation.readPresent ⟨"/w".toList, files, [], []⟩
        (Correlation.settled ⟨"/w".toList, files, [], []⟩ [] (some "/w".toList) asked) := by
    intro rust files
    have hdirectory : (toolchain rust files).directory = .ok "/w".toList := rfl
    have hroot : ((toolchain rust files).sysroot.outcome .empty).1 = .ok [] := rfl
    rw [correlation, Action.outcome_ofExcept_bind, hdirectory, ok_bind,
      Correlation.outcome_ofFunction hroot]
    show Correlation.wanted 5 f.function f.table >>= _ = _
    rw [hasked, ok_bind]
  have hc : ((correlation partly f).outcome .empty).1 = .ok
      ⟨[(1, ⟨⟨"/w/a.rs".toList, 1⟩, [(1, some "fn f() \x7b".toList)]⟩)], ["b.rs".toList]⟩ := by
    rw [hrun]
    exact toOption_eq_some_iff.1 (by decide +kernel)
  have hc' : ((correlation wholly f).outcome .empty).1 = .ok
      ⟨[(1, ⟨⟨"/w/a.rs".toList, 1⟩, [(1, some "fn g()".toList)]⟩),
        (2, ⟨⟨"/w/b.rs".toList, 2⟩, [(1, some [])]⟩)], []⟩ := by
    rw [hrun]
    exact toOption_eq_some_iff.1 (by decide +kernel)
  have htext : Terminal.shown partly.workspace (plainText partly f.function) = text := by
    decide +kernel
  refine ⟨⟨_, _, hc, rfl, hc', rfl⟩, ?_⟩
  rw [← htext]
  exact showFunction_plain ⟨rfl, rfl, rfl, rfl⟩ rfl hc hc' (.inr rfl) (.inl rfl)

end Session

end AsmLens
