import AsmLens.Json.Printer
import AsmLens.Json.Reader
import AsmLens.Journal
import AsmLens.Options

/-!
# Settings

A user's settings are kept as a JSON object in a file below the home directory. What the file holds
is set over the defaults, so every known setting has a value and the known ones come first. A file
that is not there, cannot be opened, is not JSON or is no object leaves the defaults, the last three
with a warning; one that is not UTF-8, holds an integer beyond reading or is nested too deeply
fails. So does a home directory in which the directory of the settings cannot be made.

How deep settings may be nested is bounded by two depths, one for reading and one for writing them,
neither of which follows from the other. Storing settings that are nested too deeply leaves the file
with what was written up to there.
-/

namespace AsmLens.Settings

open Text

def directory (home : Text) : Text :=
  ((Path.Normal.ofText home).child ".cargobolt".toList).toText

def path (home : Text) : Text :=
  ((Path.Normal.ofText (directory home)).child "config.json".toList).toText

/-- Makes the directory of the settings: what came of it, and the files after it. -/
def prepare (fs : FileSystem) (home : Text) : Except Failure Unit × FileSystem :=
  fs.makeDirectory (directory home)

section

variable (depth : Nat)

/-- The settings that a text holds, or what is wrong with it. -/
def ofText (home text : Text) : Except Failure (Json.Fields × Option Warning) :=
  match Json.parse depth text with
  | .ok (.obj fs) => .ok (fs, none)
  | .ok _ => .ok ([], some (.noSettings (path home)))
  | .error ⟨.longInteger _, _⟩ => .error .notNumber
  | .error ⟨.tooDeep, _⟩ => .error .tooDeep
  | .error _ => .ok ([], some (.corruptSettings (path home)))

/-- The settings that the file holds, or what is wrong with it. -/
def stored (fs : FileSystem) (home : Text) : Except Failure (Json.Fields × Option Warning) :=
  if fs.findsNormal (path home) then
    match fs.readStrict (path home) with
    | .ok text => ofText depth home text
    | .error (.cannotOpen _) => .ok ([], some (.corruptSettings (path home)))
    | .error e => .error e
  else .ok ([], none)

/-- The settings in force: those stored, over the defaults. -/
def load (fs : FileSystem) (home : Text) : Action Json.Fields := do
  let (made, fs) := prepare fs home
  Action.ofExcept made
  let (settings, warning) ← Action.ofExcept (stored depth fs home)
  if let some w := warning then Action.warn w
  return Json.merge Options.defaultSettings settings

/-- Stores settings: what came of it, and the files after it. -/
def save (fs : FileSystem) (home : Text) (settings : Json.Fields) :
    Except Failure Unit × FileSystem :=
  match prepare fs home with
  | (.error e, fs) => (.error e, fs)
  | (.ok _, fs) =>
    let (outcome, text) := Json.written depth (.obj settings)
    match fs.write (path home) text with
    | .ok after => (outcome, after)
    | .error e => (.error e, fs)

/-- Sets one of the settings in force and stores them all. A setting is in force even if it cannot
be stored. -/
def assign (fs : FileSystem) (home : Text) (settings : Json.Fields) (name : Json.Str)
    (value : Json) : Json.Fields × Except Failure Unit × FileSystem :=
  let settings := Json.set name value settings
  (settings, save depth fs home settings)

end

end AsmLens.Settings
