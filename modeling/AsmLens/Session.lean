import AsmLens.CommandLine.Reader
import AsmLens.Ir.Definition
import AsmLens.Listing.Encoding
import AsmLens.Listing.View
import AsmLens.Settings
import AsmLens.Suggestion
import AsmLens.Terminal
import AsmLens.Toolchain

/-!
# A whole run

The command line is read, the settings are loaded, the package is built, the function is looked for
in the files the build wrote, and its listing is printed, or, without a path, the names of all
functions. A failure that a user can act on is reported, and the run ends with exit code 1; an
interrupt ends it with exit code 130; any other failure is the run's own end.
-/

namespace AsmLens

open Text

/-- Where warnings go: to the terminal, with more details when debugging, or to a file. -/
inductive LogTarget where
  | terminal (debug : Bool)
  | file (path : Text)
deriving DecidableEq, Repr

/-- How a run ends. -/
inductive Ending where
  | exit (code : Int)
  /-- Without a mode the help on all modes is shown. -/
  | noMode
  | stopped (stop : CommandLine.Stop)
  | failed (failure : Failure)
deriving DecidableEq, Repr

/-- A run: how it ended, where its warnings went, and what it did. -/
structure Report where
  ending : Ending
  logs : List LogTarget
  journal : Journal
deriving DecidableEq, Repr

namespace Session

/-- Where the warnings of a run go, and what is wrong with the terminal's size or, if its setting is
no path, with the log file. The log file is no part of the workspace, so its path stays as given. -/
def logTargets (w : Workspace) (o : Options) : List LogTarget × Option Failure :=
  let terminal := LogTarget.terminal o.debugMode
  match Terminal.sizes w, o.logFile with
  | .error e, _ => ([], some e)
  | .ok _, .str (c :: s) => ([terminal, .file (Json.Str.toText (c :: s))], none)
  | .ok _, v => ([terminal], if v.truthy then some .wrongKind else none)

section

variable (t : Toolchain)

/-- The coloring of the run's own output. -/
def shade : Coloring :=
  Terminal.coloring t.workspace t.options.color

/-- Prints text, as far as it is shown. -/
def write (text : Text) : Action Unit :=
  Action.write (Terminal.shown t.workspace text)

/-- Prints the names of all functions, or, if a path was asked for, a report with suggestions. -/
def reportNotFound (names : List Text) : Action Int :=
  match t.options.path.str?.filter fun p => !p.isEmpty with
  | none => do
    write t (Console.printLines (shade t) names)
    return 0
  | some path => do
    let kind := if t.options.showsIr then "LLVM IR".toList else "assembly".toList
    Action.report (Terminal.shown t.workspace
      (Console.printError (shade t) (Suggestion.report path names kind)))
    return 1

def printListing (o : Options) (f : Function) (s : Sources) : Action Unit :=
  if o.json then
    write t (Console.print (shade t) [⟨Listing.toJson f s, none⟩])
  else
    let view : Listing.View := ⟨t.target, t.workspace.files.cwd, o⟩
    write t (view.print (shade t) f s)

/-- Prints a function that was found. Source lines are left out if not all of them are there. -/
def showFunction (f : Found) : Action Int := do
  let directory ← Action.ofExcept t.directory
  let c ← Correlation.ofFunction t.workspace.files t.sysroot t.options.sourceGap
    (some directory) f.function f.table
  if !c.isComplete && t.options.rust then
    Action.warn .sourcesHidden
    printListing t t.options.hideSources f.function c.sources
  else
    printListing t t.options f.function c.sources
  return 0

def search {α : Type} (locate : Demangler → Text → List (Except Failure Text) →
    Except Failure (Located α) × Demangler) (present : α → Action Int)
    (files : List (Except Failure Text)) : Action Int := do
  let d := Demangler.new t.target t.workspace.demangler? t.workspace.demangling
  let (located, d) := locate d (t.options.path.str?.getD []) files
  Action.adopt d
  match ← Action.ofExcept located with
  | .found x => present x
  | .notFound names => reportNotFound t names

/-- Builds, looks for the function and shows it. -/
def inspect : Action Int := do
  t.build
  let places ← Action.ofExcept (t.outputFiles (← t.targetDirectory))
  let files := places.map fun p => t.workspace.files.readText p.toText
  if t.options.showsIr then
    search t Ir.locate
      (fun d => do
        write t (Console.printLines (shade t) d.lines)
        return 0) files
  else search t Locator.locate (showFunction t) files

end

/-- The exit code of a run. Failures that a user can act on are reported; the options do not bear on
the colors there. -/
def guarded (w : Workspace) (a : Action Int) : Action Int :=
  tryCatch a fun e =>
    match e, e.message? with
    | .interrupted, _ => return 130
    | _, some m => do
      Action.report (Terminal.shown w
        (Console.printError (Terminal.coloring w (!Terminal.asksNoColor w)) m))
      return 1
    | e, none => throw e

/-- The options of a run, from its arguments and the settings. -/
def options (w : Workspace) (args : Json.Fields) : Action Options := do
  Action.ofExcept (Options.ofLayers args (← Settings.load (w.nesting .settings) w.files w.home))

def finish (t : Toolchain) (journal : Journal) (logs : List LogTarget) : Report :=
  match (guarded t.workspace (inspect t)).outcome journal with
  | (.ok code, journal) => ⟨.exit code, logs, journal⟩
  | (.error e, journal) => ⟨.failed e, logs, journal⟩

/-- A run with arguments. -/
def start (w : Workspace) (args : Json.Fields) : Report :=
  match (options w args).outcome .empty with
  | (.error e, journal) => ⟨.failed e, [], journal⟩
  | (.ok o, journal) =>
    match logTargets w o with
    | (logs, some e) => ⟨.failed e, logs, journal⟩
    | (logs, none) =>
      let w := { w with files := (Settings.prepare w.files w.home).2 }
      finish ⟨w, o, Target.ofTriple w.host o.triple.str?⟩ journal logs

/-- A run with the words of a command line. -/
def run (w : Workspace) (words : List Text) : Report :=
  match CommandLine.parse words with
  | .error stop => ⟨.stopped stop, [], .empty⟩
  | .ok [] => ⟨.noMode, [], .empty⟩
  | .ok args => start w args

end Session

end AsmLens
