import AsmLens.Text.Search

/-!
# Targets

A target is named by its triple, and the triple decides how its assembly is written: which
directives carry files and locations, how function labels start, what ends a function, what opens
a comment, and which mnemonics jump or call. Every reader of assembly takes the target as an
argument, so any dialect is read on any host.
-/

namespace AsmLens

open Text

/-- Architecture families. -/
inductive Arch where
  | x86
  | aarch64
  | arm
  | sparc
  | power
  | mips
  | unknown
deriving DecidableEq, Repr

namespace Arch

/-- How the triples of each family begin; the first match counts. -/
def beginnings : List (Text × Arch) :=
  [("x86_64".toList, x86), ("i386".toList, x86), ("i586".toList, x86), ("i686".toList, x86),
   ("aarch64".toList, aarch64), ("arm64".toList, aarch64), ("arm".toList, arm),
   ("thumb".toList, arm), ("sparc".toList, sparc), ("powerpc".toList, power),
   ("mips".toList, mips)]

end Arch

/-- The machine that builds, as it names itself. -/
structure Host where
  machine : Text
  system : Text
deriving Repr

namespace Host

/-- The architecture part of a triple for the machine names that differ or are known. -/
def architectures : List (Text × Text) :=
  [("x86_64".toList, "x86_64".toList), ("amd64".toList, "x86_64".toList),
   ("i386".toList, "i686".toList), ("i686".toList, "i686".toList),
   ("arm64".toList, "aarch64".toList), ("aarch64".toList, "aarch64".toList)]

def triple (h : Host) : Text :=
  let arch := (architectures.lookup (h.machine.map Char.toLower)).getD "x86_64".toList
  if h.system = "Darwin".toList then arch ++ "-apple-darwin".toList
  else if h.system = "Windows".toList then arch ++ "-pc-windows-msvc".toList
  else arch ++ "-unknown-linux-gnu".toList

end Host

/-- A target, named by its triple. -/
structure Target where
  triple : Text
deriving DecidableEq, Repr

namespace Target

/-- The target asked for, or the host's if none is named. -/
def ofTriple (host : Host) : Option Text → Target
  | none => ⟨host.triple⟩
  | some t => ⟨if t.isEmpty then host.triple else t⟩

variable (t : Target)

def isWindows : Bool :=
  occurs "windows".toList t.triple

def isLinux : Bool :=
  occurs "linux".toList t.triple

def isApple : Bool :=
  occurs "apple".toList t.triple || occurs "darwin".toList t.triple

/-- The family that the part of the triple before the first hyphen belongs to. -/
def arch : Arch :=
  let head := (before ['-'] t.triple).map Char.toLower
  match Arch.beginnings.find? fun b => startsWith b.1 head with
  | some b => b.2
  | none => .unknown

def fileDirective : Text :=
  if t.isWindows then ".cv_file".toList else ".file".toList

/-- The directive that sets the debug location. -/
def locDirective : Text :=
  if t.isWindows then ".cv_loc".toList else ".loc".toList

/-- Where file, line and column stand among the words of a location directive. CodeView names a
function before them. -/
def locFields : Nat × Nat × Nat :=
  if t.isWindows then (2, 3, 4) else (1, 2, 3)

/-- What every function label begins with. -/
def labelPrefix : Text :=
  if t.isApple then "__".toList else "_".toList

/-- What the line after a function begins with. -/
def endMarker : Text :=
  if t.isWindows then ".seh_endproc".toList else ".cfi_endproc".toList

/-- What opens a comment outside quotes. -/
def commentMarkers : List Text :=
  match t.arch with
  | .x86 => [[';'], ['#']]
  | .aarch64 => [[';'], ['/', '/']]
  | .arm => [[';'], ['@']]
  | _ => [[';']]

/-- How labels begin that only the compiler cares for. -/
def housekeeping : List Text :=
  let names := ["Lcfi".toList, "Ltmp".toList, "Lfunc_begin".toList, "Lfunc_end".toList]
  if t.isApple then names else names.map ('.' :: ·)

/-- The part of a path that leads into the standard library's sources. -/
def librarySources : Text :=
  if t.isWindows then "lib\\rustlib\\src\\rust".toList else "lib/rustlib/src/rust".toList

/-- A mnemonic as the tables below spell it. -/
def plainMnemonic (m : Text) : Text :=
  m.map Char.toLower

def isJump (mnemonic : Text) (operands : List Text) : Bool :=
  let m := plainMnemonic mnemonic
  match t.arch with
  | .x86 => startsWith ['j'] m
  | .aarch64 => m == ['b'] || startsWith ['b', '.'] m
  | .arm | .sparc => (operands.head?.map (startsWith ['.', 'L'])).getD false
  | .power => startsWith ['b'] m && !startsWith ['b', 'l'] m
  | .mips => startsWith ['b'] m
  | .unknown => false

def isCall (mnemonic : Text) : Bool :=
  let m := plainMnemonic mnemonic
  match t.arch with
  | .x86 => startsWith "call".toList m
  | .aarch64 | .power => m == "bl".toList || m == "blr".toList
  | .arm => m == "bl".toList || m == "blx".toList
  | .sparc => m == "call".toList
  | .mips => m == "jal".toList || m == "jalr".toList || m == "bal".toList
  | .unknown => false

end Target

end AsmLens
