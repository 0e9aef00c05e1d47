import AsmLens.Text.Blank

/-!
# Finding and cutting

Occurrences of one text in another, and the cuts made at them.
-/

namespace AsmLens.Text

def startsWith (p s : Text) : Bool :=
  p.isPrefixOf s

def endsWith (p s : Text) : Bool :=
  p.isSuffixOf s

def occurs (p : Text) : Text → Bool
  | [] => p.isEmpty
  | c :: s => startsWith p (c :: s) || occurs p s

/-- What stands before the first occurrence of `p`; all of the text if there is none. -/
def before (p : Text) : Text → Text
  | [] => []
  | c :: s => if startsWith p (c :: s) then [] else c :: before p s

/-- Each pair of backslashes is one. -/
def halveBackslashes : Text → Text
  | [] => []
  | '\\' :: '\\' :: s => '\\' :: halveBackslashes s
  | c :: s => c :: halveBackslashes s

/-- Text without the occurrences of `c` at its ends. -/
def stripChar (c : Char) (s : Text) : Text :=
  ((s.dropWhile (· == c)).reverse.dropWhile (· == c)).reverse

/-- Text filled up with spaces on the right to at least `n` characters. -/
def padRight (n : Nat) (s : Text) : Text :=
  s ++ List.replicate (n - s.length) ' '

/-- The texts one after another with `sep` between them. -/
def join (sep : Text) (ts : List Text) : Text :=
  sep.intercalate ts

def le : Text → Text → Bool
  | [], _ => true
  | _ :: _, [] => false
  | a :: s, b :: t => decide (a.toNat < b.toNat) || (a == b && le s t)

/-- A list without its repeats, in rising order. -/
def sortDedup (ts : List Text) : List Text :=
  ts.eraseDups.mergeSort le

end AsmLens.Text
