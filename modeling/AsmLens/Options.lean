import AsmLens.Failure
import AsmLens.Json.Value

/-!
# Options

Everything a run was asked to do. The words of the command line come before the settings, and these
before the defaults. Both are free in kind: a switch is on if its value counts as true, and the
values that only come to matter later are kept as they are. Debugging shows everything, the source
lines included.
-/

namespace AsmLens

open Text

/-- What a run was asked to do. -/
structure Options where
  mode : Json
  path : Json
  triple : Json
  asmStyle : Json
  buildType : Json
  features : List Json
  exampleName : Json
  lib : Bool
  noDefaultFeatures : Bool
  manifestPath : Json
  debugInfo : Bool
  rust : Bool
  comments : Bool
  directives : Bool
  json : Bool
  color : Bool
  debugMode : Bool
  sourceGap : Int
  logFile : Json
deriving Repr

namespace Options

def asmMode : Text := "asm".toList

def irMode : Text := "llvm-ir".toList

/-- The options of a run that was asked for nothing. -/
def standard : Options :=
  { mode := .str asmMode, path := .null, triple := .null, asmStyle := .str "intel".toList
    buildType := .str "release".toList, features := [], exampleName := .null, lib := false
    noDefaultFeatures := false, manifestPath := .null, debugInfo := false, rust := false
    comments := false, directives := false, json := false, color := true, debugMode := false
    sourceGap := 5, logFile := .null }

variable (o : Options)

def showsIr : Bool :=
  o.mode.str? == some irMode

def printComments : Bool :=
  o.debugMode || o.comments

def printDirectives : Bool :=
  o.debugMode || o.directives

/-- Debugging shows the source lines. -/
def settle : Options :=
  { o with rust := o.rust || o.debugMode }

/-- The options with the source lines left out. -/
def hideSources : Options :=
  { o with rust := false }

/-- The options given as settings, with the value each has if nothing is set. -/
def defaultSettings : Json.Fields :=
  [("asm_style".toList, .str "intel".toList), ("build_type".toList, .str "release".toList),
   ("color".toList, .bool true), ("rust".toList, .bool false), ("comments".toList, .bool false),
   ("directives".toList, .bool false), ("source_gap".toList, .int 5), ("log_file".toList, .null)]

/-- A setting, or its default. -/
def setting (settings : Json.Fields) (name : String) : Json :=
  ((Json.get? settings name.toList).or (Json.get? defaultSettings name.toList)).getD .null

/-- What the command line gives, or null. -/
def given (args : Json.Fields) (name : String) : Json :=
  (Json.get? args name.toList).getD .null

/-- What the command line gives, or else the setting. -/
def chosen (args settings : Json.Fields) (name : String) : Json :=
  match given args name with
  | .null => setting settings name
  | v => v

/-- A whole number out of a setting. A fraction is cut towards zero. -/
def wholeNumber : Json → Except Failure Int
  | .int n => .ok n
  | .bool b => .ok (if b then 1 else 0)
  | .str s => match integer? s.toText with
    | some n => .ok n
    | none => .error .notNumber
  | .real .nan => .error .notNumber
  | .real x => match x.wholePart? with
    | some n => .ok n
    | none => .error .notFinite
  | .null | .arr _ | .obj _ => .error .wrongKind

/-- A list of features; a text stands for its characters, and an object for its names. -/
def featureList : Json → Except Failure (List Json)
  | .str s => .ok (s.map fun c => .str [c])
  | .arr vs => .ok vs
  | .obj fs => .ok (fs.map fun f => .str f.1)
  | v => if v.truthy then .error .wrongKind else .ok []

/-- The options from the command line and the settings. -/
def ofLayers (args settings : Json.Fields) : Except Failure Options := do
  let flag (name : String) : Bool := (given args name).truthy
  let choice (name : String) : Bool := (chosen args settings name).truthy
  let mode := given args "command"
  let features ← featureList (given args "features")
  let gap ← wholeNumber (setting settings "source_gap")
  return settle
    { mode := if mode.truthy then mode else .str asmMode
      path := given args "path", triple := given args "target"
      asmStyle := chosen args settings "asm_style", buildType := chosen args settings "build_type"
      features, exampleName := given args "example", lib := flag "lib"
      noDefaultFeatures := flag "no_default_features"
      manifestPath := given args "manifest_path", debugInfo := flag "debug_info"
      rust := choice "rust", comments := choice "comments", directives := choice "directives"
      json := flag "json", color := choice "color", debugMode := flag "debug_mode"
      sourceGap := gap, logFile := (Json.get? settings "log_file".toList).getD .null }

end Options

end AsmLens
