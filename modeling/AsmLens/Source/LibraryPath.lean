import AsmLens.Path.Components

/-!
# Paths of the standard library

Debug information records where the standard library's sources were when the toolchain was built.
The tail of such a path starts at the library's directory: `library` and a crate, `src` and a crate
with `lib` before its name, or whatever follows the directory of an old build service. The tail
below the sysroot's copy of the sources is where the file is on this machine.
-/

namespace AsmLens.Source

open Text

/-- The directory of the old build service. -/
def legacyDirectory : List Text :=
  ["travis".toList, "build".toList, "rust-lang".toList, "rust".toList]

def libraryCrates : List Text :=
  ["alloc".toList, "backtrace".toList, "core".toList, "panic_abort".toList, "panic_unwind".toList,
   "portable-simd".toList, "proc_macro".toList, "std".toList, "stdarch".toList, "test".toList,
   "unwind".toList]

/-- Two components in a row that lead into a crate of the standard library. -/
def entersCrate (a b : Text) : Bool :=
  a == "library".toList && libraryCrates.contains b
    || a == "src".toList && startsWith "lib".toList b && libraryCrates.contains (b.drop 3)

/-- Components from the first that leads into a crate on. -/
def crateTail? : List Text → Option (List Text)
  | a :: b :: cs => if entersCrate a b then some (a :: b :: cs) else crateTail? (b :: cs)
  | _ => none

/-- The components of a path from the standard library's directory on. -/
def libraryTail? (path : Text) : Option (List Text) :=
  let cs := Path.components path
  (Path.afterRun? legacyDirectory cs).or (crateTail? cs)

/-- Where the standard library's sources are below a sysroot. -/
def libraryDirectory : List Text :=
  ["lib".toList, "rustlib".toList, "src".toList, "rust".toList]

end AsmLens.Source
