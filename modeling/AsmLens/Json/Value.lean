import AsmLens.Json.CodePoint
import AsmLens.Number.Binary64

/-!
# JSON values

Integers are exact; a number written with a point or an exponent is a binary fraction. An object is
a list of fields in the order in which their names came first, each name once.
-/

namespace AsmLens

open Json (Str)

/-- A JSON value. -/
inductive Json where
  | null
  | bool (b : Bool)
  | int (n : Int)
  | real (x : Binary64)
  | str (s : Str)
  | arr (items : List Json)
  | obj (fields : List (Str × Json))
deriving Repr, Inhabited

namespace Json

/-- The fields of an object, in order. -/
abbrev Fields := List (Str × Json)

def get? (fs : Fields) (name : Str) : Option Json :=
  fs.lookup name

/-- The fields with one set: in its place if it is there, else at the end. -/
def set (name : Str) (value : Json) : Fields → Fields
  | [] => [(name, value)]
  | f :: fs => if f.1 = name then (name, value) :: fs else f :: set name value fs

/-- The fields with others set over them, one by one. -/
def merge (fs new : Fields) : Fields :=
  new.foldl (fun acc f => set f.1 f.2 acc) fs

mutual

/-- How many arrays and objects stand inside each other. -/
def depth : Json → Nat
  | arr vs => depthOfItems vs + 1
  | obj fs => depthOfFields fs + 1
  | _ => 0

def depthOfItems : List Json → Nat
  | [] => 0
  | v :: vs => max (depth v) (depthOfItems vs)

def depthOfFields : List (Str × Json) → Nat
  | [] => 0
  | (_, v) :: fs => max (depth v) (depthOfFields fs)

end

/-- A value that counts as true: everything but null, false, zero and what is empty. -/
def truthy : Json → Bool
  | null => false
  | bool b => b
  | int n => n != 0
  | real x => !x.isZero
  | str s => !s.isEmpty
  | arr xs => !xs.isEmpty
  | obj fs => !fs.isEmpty

/-- The text of a string; other values have none. -/
def str? : Json → Option Text
  | str s => some s.toText
  | _ => none

def int? : Json → Option Int
  | int n => some n
  | _ => none

/-- The items of an array; other values have none. -/
def items : Json → List Json
  | arr xs => xs
  | _ => []

/-- The fields of an object; other values have none. -/
def fields : Json → Fields
  | obj fs => fs
  | _ => []

/-- A field of an object; null if there is none. -/
def field (name : String) (j : Json) : Json :=
  (get? j.fields name.toList).getD null

end Json

end AsmLens
