import AsmLens.Journal
import AsmLens.Json.Reader
import AsmLens.Options

/-!
# The toolchain

The package is built so that the compiler writes assembly (or LLVM IR) with debug information. Then
the toolchain is asked where its output is, and the files of the kind looked for are collected
there, in the order of their places and each once, however many links lead to it. It can also be
asked for its sysroot.
-/

namespace AsmLens

open Text

/-- A toolchain: the workspace it is found in, what it is used for, and for which target. -/
structure Toolchain where
  workspace : Workspace
  options : Options
  target : Target

namespace Toolchain

variable (t : Toolchain)

/-- The build tool, if it is installed. -/
def cargo? : Option Text :=
  (t.workspace.program? "cargo").filter fun p => !p.isEmpty

/-- The build tool as commands name it. -/
def cargo : Text :=
  t.cargo?.getD "cargo".toList

def compiler : Text :=
  (t.workspace.environmentValue? "RUSTC").getD "rustc".toList

/-- What the names of the files looked for end in. -/
def suffix : Text :=
  if t.options.showsIr then ".ll".toList else ".s".toList

/-- The text of an option; none if it counts as false. -/
def optionText? (v : Json) : Except Failure (Option Text) :=
  if v.truthy then
    match v with
    | .str s => .ok (some s.toText)
    | _ => .error .wrongKind
  else .ok none

/-- The path of the package's manifest, if one is given; a directory stands for the manifest in
it. -/
def manifest? : Except Failure (Option Text) :=
  match t.options.manifestPath with
  | .null => .ok none
  | .str s =>
    let p := s.toText
    .ok <| some <|
      if t.workspace.files.findsDirectory p then Path.joinRooted p "Cargo.toml".toList else p
  | _ => .error .wrongKind

/-- The directory of the manifest; without one, the working directory. -/
def directory : Except Failure Text := do
  let cwd := t.workspace.files.cwd
  match ← t.manifest? with
  | none => return cwd
  | some p => return Path.directory (Path.tidy (Path.joinRooted cwd p))

/-- The words for an option, if it is given. -/
def wordsFor (name : String) (value : Option Text) : List Text :=
  match value with
  | some (c :: v) => [name.toList, c :: v]
  | _ => []

/-- The word for a switch, if it is on. -/
def wordIf (name : String) (b : Bool) : List Text :=
  if b then [name.toList] else []

def manifestWords : Except Failure (List Text) := do
  return wordsFor "--manifest-path" (← t.manifest?)

/-- The compiler flags that make assembly or LLVM IR. Assembly for x86 is written in the Intel
style if that is asked for. -/
def emission : Text :=
  if t.options.showsIr then " --emit llvm-ir -g".toList
  else if t.options.asmStyle.str? == some "intel".toList && t.target.arch == .x86 then
    " --emit asm -g -C llvm-args=-x86-asm-syntax=intel".toList
  else " --emit asm -g".toList

def flagsVariable : Text := "RUSTFLAGS".toList

/-- The compiler flags of the build: those of the environment and the ones that are needed. -/
def compilerFlags : Text :=
  trim ((t.workspace.environment.lookup flagsVariable).getD [] ++ t.emission)

def featureWords (features : List Json) : Except Failure (List Text) :=
  if features.isEmpty then .ok []
  else match features.mapM Json.str? with
    | some names => .ok ["--features".toList, join [' '] names]
    | none => .error .wrongKind

def buildWords : Except Failure (List Text) := do
  let o := t.options
  return [t.cargo, "build".toList, "--verbose".toList]
    ++ wordIf "--release" (o.buildType.str? == some "release".toList)
    ++ wordsFor "--target" (← optionText? o.triple)
    ++ (← featureWords o.features)
    ++ wordsFor "--example" (← optionText? o.exampleName)
    ++ wordIf "--lib" o.lib
    ++ wordIf "--no-default-features" o.noDefaultFeatures
    ++ (← t.manifestWords)

def metadataWords : Except Failure (List Text) := do
  return [t.cargo, "metadata".toList, "--format-version".toList, "1".toList, "--no-deps".toList]
    ++ (← t.manifestWords)

def sysrootWords : List Text :=
  [t.compiler, "--print".toList, "sysroot".toList]

/-- Gives a command: its exit code, output and diagnostics, which have to be text. -/
def ask (query : Query) (words : List Text) (flags : Option Text)
    (notStarted : Text → Failure) : Action (Int × Text × Text) := do
  Action.note ⟨words, flags⟩
  match t.workspace.answers query with
  | .finished code output diagnostics => return (code, output, diagnostics)
  | .undecodable => throw .notText
  | .notStarted reason => throw (notStarted reason)
  | .interrupted => throw .interrupted

/-- Builds the package. Debugging shows what the build tool has to say. -/
def build : Action Unit := do
  if t.cargo?.isNone then throw (.toolchain .noCargo)
  let words ← Action.ofExcept t.buildWords
  let (code, output, diagnostics) ← t.ask .build words t.compilerFlags fun _ => .notStarted
  if code ≠ 0 then throw (.build code output diagnostics)
  if t.options.debugMode then Action.report diagnostics

/-! ## The target directory -/

/-- The kind of a value as problems name it. -/
def kindName : Json → Text
  | .null => "NoneType".toList
  | .bool _ => "bool".toList
  | .int _ => "int".toList
  | .real _ => "float".toList
  | .str _ => "str".toList
  | .arr _ => "list".toList
  | .obj _ => "dict".toList

/-- The target directory that a description of the package names, or why it names none. -/
def namedDirectory : Json → Except Text Text
  | .obj fs =>
    match Json.get? fs "target_directory".toList with
    | some (.str d) => .ok d.toText
    | some v => .error ("expected str, bytes or os.PathLike object, not ".toList ++ kindName v)
    | none => .error "'target_directory'".toList
  | .arr _ => .error "list indices must be integers or slices, not str".toList
  | .str _ => .error "string indices must be integers, not 'str'".toList
  | v => .error ('\'' :: kindName v ++ "' object is not subscriptable".toList)

/-- The target directory out of a description of the package that may be nested `depth` deep. -/
def describedDirectory (depth : Nat) (description : Text) : Except Failure Text :=
  let unreadable (detail : Text) : Failure := .toolchain (.metadataUnreadable detail)
  match Json.parse depth description with
  | .error ⟨.tooDeep, _⟩ => .error .tooDeep
  | .error stop => .error (unreadable (stop.message description))
  | .ok v => (namedDirectory v).mapError unreadable

/-- The directory of a build below the target directory. -/
def outputDirectory (directory : Text) : Except Failure Path.Normal := do
  let base := Path.Normal.ofText directory
  let base := match ← optionText? t.options.triple with
    | some triple => base.child triple
    | none => base
  match t.options.buildType with
  | .str kind => return base.child kind.toText
  | _ => throw .wrongKind

/-- The directory that the build writes to. -/
def targetDirectory : Action Path.Normal := do
  let words ← Action.ofExcept t.metadataWords
  let (code, output, diagnostics) ← t.ask .metadata words none fun reason =>
    .toolchain (.metadataNotStarted reason)
  if code ≠ 0 then throw (.toolchain (.metadataFailed (trim diagnostics)))
  Action.ofExcept do
    t.outputDirectory (← describedDirectory (t.workspace.nesting .description) output)

/-- The files of the kind looked for below a directory: each once, links followed, in order. -/
def collect (directory : Text) : List Place :=
  let fs := t.workspace.files
  let named := (fs.below directory).filter fun p => (p.getLast?.map (endsWith t.suffix)).getD false
  (named.map fs.follow).eraseDups.mergeSort Place.le

/-- The files of the kind looked for below a directory, which has to have some. -/
def outputFiles (directory : Path.Normal) : Except Failure (List Place) :=
  match t.collect directory.toText with
  | [] => .error (.noOutputFiles t.suffix directory.toText)
  | files => .ok files

def sysroot : Action Text := do
  let (code, output, diagnostics) ← t.ask .sysroot t.sysrootWords none fun reason =>
    .toolchain (.sysrootNotStarted t.compiler reason)
  if code ≠ 0 then throw (.toolchain (.sysrootFailed t.compiler (trim diagnostics)))
  return trim output

end Toolchain

end AsmLens
