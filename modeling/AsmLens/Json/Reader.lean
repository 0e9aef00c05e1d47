import AsmLens.Json.Value
import AsmLens.Text.Search

/-!
# Reading JSON

Blanks are the space, the tab, the line feed and the carriage return. Strings hold no raw control
characters, numbers no leading zeros; a repeated name keeps its first place and its last value. The
words `NaN`, `Infinity` and `-Infinity` are numbers. A problem is reported with the place where it
was met, as the number of characters left there, from which `Stop.message` counts line and column.
An integer of more than 4300 digits is a problem of its own, without a place. So are more arrays and
objects inside each other than the depth that the reader is given: the stack bounds it, so that it
depends on how much of that is in use where a text is read.

The escapes of the two halves of a surrogate pair are one character. Each half without the other is
a code point by itself.
-/

namespace AsmLens.Json

open Text

/-- What can be wrong with JSON text. -/
inductive Problem where
  | noValue
  | noName
  | noColon
  | noComma
  | moreText
  | openString
  | controlCharacter
  | badEscape
  | badUnit
  | byteOrderMark
  | longInteger (digits : Nat)
  | tooDeep
deriving DecidableEq, Repr

namespace Problem

def text : Problem → Text
  | noValue => "Expecting value".toList
  | noName => "Expecting property name enclosed in double quotes".toList
  | noColon => "Expecting ':' delimiter".toList
  | noComma => "Expecting ',' delimiter".toList
  | moreText => "Extra data".toList
  | openString => "Unterminated string starting at".toList
  | controlCharacter => "Invalid control character at".toList
  | badEscape => "Invalid \\escape".toList
  | badUnit => "Invalid \\uXXXX escape".toList
  | byteOrderMark => "Unexpected UTF-8 BOM (decode using utf-8-sig)".toList
  | longInteger digits =>
    "Exceeds the limit (4300 digits) for integer string conversion: value has ".toList
      ++ natural digits ++ " digits; use sys.set_int_max_str_digits() to increase the limit".toList
  | tooDeep => "Nested too deeply".toList

end Problem

/-- Where reading stopped and why: the place is given by the number of characters from it on. -/
structure Stop where
  problem : Problem
  left : Nat
deriving DecidableEq, Repr

namespace Stop

/-- The problem in the text that was read, with its line, column and offset. -/
def message (s : Stop) (text : Text) : Text :=
  match s.problem with
  | .longInteger n => (Problem.longInteger n).text
  | p =>
    let offset := text.length - s.left
    let done := text.take offset
    let column := (done.reverse.takeWhile (· != '\n')).length + 1
    p.text ++ ": line ".toList ++ natural (done.count '\n' + 1) ++ " column ".toList
      ++ natural column ++ " (char ".toList ++ natural offset ++ [')']

end Stop

def isSpace (c : Char) : Bool :=
  c == ' ' || c == '\t' || c == '\n' || c == '\r'

def skip (s : Text) : Text :=
  s.dropWhile isSpace

/-! ## Strings -/

def hexValue? (c : Char) : Option Nat :=
  if '0' ≤ c ∧ c ≤ '9' then some (c.toNat - 48)
  else if 'a' ≤ c ∧ c ≤ 'f' then some (c.toNat - 87)
  else if 'A' ≤ c ∧ c ≤ 'F' then some (c.toNat - 55)
  else none

/-- The UTF-16 unit at the start of a text: four hexadecimal digits, with something after them. -/
def unit? : Text → Option Nat
  | a :: b :: c :: d :: _ :: _ => do
    return ((← hexValue? a) * 16 + (← hexValue? b)) * 256 + (← hexValue? c) * 16 + (← hexValue? d)
  | _ => none

/-- The character that stands for a letter after a backslash. -/
def escaped? (c : Char) : Option Char :=
  if c = '"' ∨ c = '\\' ∨ c = '/' then some c
  else if c = 'b' then some '\x08'
  else if c = 'f' then some '\x0c'
  else if c = 'n' then some '\n'
  else if c = 'r' then some '\r'
  else if c = 't' then some '\t'
  else none

def isHigh (n : Nat) : Bool :=
  decide (0xd800 ≤ n) && decide (n < 0xdc00)

def isLow (n : Nat) : Bool :=
  decide (0xdc00 ≤ n) && decide (n < 0xe000)

/-- The low unit written at the start of a text. -/
def lowUnit? : Text → Option Nat
  | '\\' :: 'u' :: s => (unit? s).filter isLow
  | _ => none

/-- The code point that an escape stands for, and its length after the backslash. -/
def escape (s : Text) : Except Stop (CodePoint × Nat) :=
  match s with
  | [] => .error ⟨.openString, 0⟩
  | 'u' :: r =>
    match unit? r with
    | none => .error ⟨.badUnit, s.length⟩
    | some n =>
      match if isHigh n then lowUnit? (r.drop 4) else none with
      | some m => .ok (.char (Char.ofNat (0x10000 + (n - 0xd800) * 0x400 + (m - 0xdc00))), 11)
      | none => .ok (.ofUnit n, 5)
  | c :: _ =>
    match escaped? c with
    | some e => .ok (.char e, 1)
    | none => .error ⟨.badEscape, s.length + 1⟩

/-- The rest of a string after its opening quote, and the text after the string. An end without a
closing quote is reported at the opening one, where `start` characters were left. -/
def stringBody (start : Nat) : Text → Except Stop (Str × Text)
  | [] => .error ⟨.openString, start⟩
  | c :: s =>
    if c = '"' then .ok ([], s)
    else if c = '\\' then
      match escape s with
      | .error ⟨.openString, _⟩ => .error ⟨.openString, start⟩
      | .error e => .error e
      | .ok (e, n) => do
        let (t, r) ← stringBody start (s.drop n)
        return (e :: t, r)
    else if c.toNat < 0x20 then .error ⟨.controlCharacter, s.length + 1⟩
    else do
      let (t, r) ← stringBody start s
      return (.char c :: t, r)
termination_by s => s.length
decreasing_by
  · simp only [List.length_drop, List.length_cons]; omega
  · simp

/-! ## Numbers -/

/-- The decimal digits at the start of a text, and the rest. -/
def digitRun (s : Text) : Text × Text :=
  (s.takeWhile Char.isDigit, s.dropWhile Char.isDigit)

/-- The digits before a point or exponent: a zero alone, or digits that begin with another. -/
def wholePart? (s : Text) : Option (Text × Text) :=
  match s with
  | '0' :: r => some (['0'], r)
  | c :: _ => if c.isDigit then some (digitRun s) else none
  | [] => none

def fraction (s : Text) : Text × Text :=
  match s with
  | '.' :: r =>
    let (ds, r') := digitRun r
    if ds.isEmpty then ([], s) else ('.' :: ds, r')
  | _ => ([], s)

/-- A mark, a sign that may be missing, and digits, or nothing. -/
def exponent (s : Text) : Text × Text :=
  match s with
  | c :: r =>
    if c = 'e' ∨ c = 'E' then
      let (sign, r) : Text × Text := match r with
        | '+' :: r => (['+'], r)
        | '-' :: r => (['-'], r)
        | r => ([], r)
      let (ds, r') := digitRun r
      if ds.isEmpty then ([], s) else (c :: sign ++ ds, r')
    else ([], s)
  | [] => ([], s)

def wholeNumber (negative : Bool) (ds : Text) : Except Stop Json :=
  if ds.length ≤ maxDigits then
    let n : Int := ofDigits (ds.map fun c => c.toNat - 48)
    .ok (.int (if negative then -n else n))
  else .error ⟨.longInteger ds.length, 0⟩

/-- A number after its sign. -/
def unsigned? (negative : Bool) (s : Text) : Option (Except Stop (Json × Text)) :=
  (wholePart? s).map fun (whole, r) =>
    let (frac, r) := fraction r
    let (exp, r) := exponent r
    if frac.isEmpty && exp.isEmpty then
      (wholeNumber negative whole).map fun v => (v, r)
    else
      let sign : Text := if negative then ['-'] else []
      .ok (.real (.ofNumeral (sign ++ whole ++ frac ++ exp)), r)

/-- The words that are values. -/
def constants : List (Text × Json) :=
  [("null".toList, .null), ("true".toList, .bool true), ("false".toList, .bool false),
   ("NaN".toList, .real .nan), ("Infinity".toList, .real (.infinite false)),
   ("-Infinity".toList, .real (.infinite true))]

/-- A word or a number at the start of a text, and the rest. -/
def scalar (s : Text) : Except Stop (Json × Text) :=
  match constants.find? fun c => startsWith c.1 s with
  | some c => .ok (c.2, s.drop c.1.length)
  | none =>
    let number := match s with
      | '-' :: r => unsigned? true r
      | _ => unsigned? false s
    number.getD (.error ⟨.noValue, s.length⟩)

/-! ## Values -/

mutual

/-- A value at the start of a text, and the rest, if it is nested no deeper than `depth`. -/
def valueAt (depth : Nat) : Nat → Text → Except Stop (Json × Text)
  | 0, s => .error ⟨.noValue, s.length⟩
  | n + 1, s =>
    match s with
    | '"' :: r => (stringBody s.length r).map fun (t, r) => (.str t, r)
    | '[' :: r =>
      if depth = 0 then .error ⟨.tooDeep, s.length⟩
      else match skip r with
        | ']' :: r => .ok (.arr [], r)
        | r => (itemsAt (depth - 1) n r).map fun (vs, r) => (.arr vs, r)
    | '\x7b' :: r =>
      if depth = 0 then .error ⟨.tooDeep, s.length⟩
      else match skip r with
        | '\x7d' :: r => .ok (.obj [], r)
        | r => (membersAt (depth - 1) n r).map fun (fs, r) => (.obj (merge [] fs), r)
    | s => scalar s

/-- The items of an array from a value on, and the text after the array. -/
def itemsAt (depth : Nat) : Nat → Text → Except Stop (List Json × Text)
  | 0, s => .error ⟨.noValue, s.length⟩
  | n + 1, s => do
    let (v, r) ← valueAt depth n s
    match skip r with
    | ']' :: r => return ([v], r)
    | ',' :: r =>
      let (vs, r) ← itemsAt depth n (skip r)
      return (v :: vs, r)
    | r => throw ⟨.noComma, r.length⟩

/-- The fields of an object from a name on, and the text after the object. -/
def membersAt (depth : Nat) : Nat → Text → Except Stop (List (Str × Json) × Text)
  | 0, s => .error ⟨.noName, s.length⟩
  | n + 1, s => do
    match s with
    | '"' :: r =>
      let (k, r) ← stringBody s.length r
      match skip r with
      | ':' :: r =>
        let (v, r) ← valueAt depth n (skip r)
        match skip r with
        | '\x7d' :: r => return ([(k, v)], r)
        | ',' :: r =>
          let (fs, r) ← membersAt depth n (skip r)
          return ((k, v) :: fs, r)
        | r => throw ⟨.noComma, r.length⟩
      | r => throw ⟨.noColon, r.length⟩
    | s => throw ⟨.noName, s.length⟩

end

/-- Reads a text that is one value, nested no deeper than `depth`. -/
def parse (depth : Nat) (text : Text) : Except Stop Json :=
  if text.head? = some '\ufeff' then .error ⟨.byteOrderMark, text.length⟩
  else do
    let (v, r) ← valueAt depth (2 * text.length + 2) (skip text)
    match skip r with
    | [] => return v
    | r => throw ⟨.moreText, r.length⟩

end AsmLens.Json
