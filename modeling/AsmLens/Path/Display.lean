import AsmLens.Path.Absolute

/-!
# Paths for display

A file of the standard library is shown by what follows the component that leads to the library's
sources, a file of the current project by what follows the working directory. Relative paths and
all others are shown as they are.
-/

namespace AsmLens.Path

def display (p librarySources cwd : Text) : Text :=
  if isAbsolute p then
    ((after? p librarySources).or (after? p cwd)).getD p
  else p

end AsmLens.Path
