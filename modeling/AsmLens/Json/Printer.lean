import AsmLens.Failure
import AsmLens.Json.Value
import AsmLens.Number.Shortest
import AsmLens.Text.Literal
import AsmLens.Text.Search

/-!
# Writing JSON

Two spaces a level, one item a line, nothing between the brackets of an empty array or object, and
visible ASCII alone: other characters are written as the hexadecimal numbers of their UTF-16 units,
and half a surrogate pair, which is a unit, as its own.
Fractions have the fewest digits that stand for them, with an exponent from 10^16 on and below
10^-4.

A file gets a value chunk by chunk. More arrays and objects inside each other than the depth that
the writer is given, or an integer of more than 4300 digits, are refused where they begin, and the
chunks before them stay written. The depth has the same reason as the reader's, and is another.
-/

namespace AsmLens.Json

open Text

/-- A UTF-16 unit by its number. -/
def unitEscape (n : Nat) : Text :=
  '\\' :: 'u' :: hex 4 n

/-- A character inside a string. -/
def escapeChar (c : Char) : Text :=
  if c = '"' then ['\\', '"']
  else if c = '\\' then ['\\', '\\']
  else if c = '\n' then ['\\', 'n']
  else if c = '\r' then ['\\', 'r']
  else if c = '\t' then ['\\', 't']
  else if c.toNat = 0x8 then ['\\', 'b']
  else if c.toNat = 0xc then ['\\', 'f']
  else if 0x20 ≤ c.toNat ∧ c.toNat < 0x7f then [c]
  else if c.toNat < 0x10000 then unitEscape c.toNat
  else unitEscape (0xd800 + (c.toNat - 0x10000) / 0x400)
    ++ unitEscape (0xdc00 + (c.toNat - 0x10000) % 0x400)

/-- A code point inside a string. Half a pair is written as the unit that it is. -/
def escapePoint : CodePoint → Text
  | .char c => escapeChar c
  | .half n => unitEscape (0xd800 + n)

def quote (s : Str) : Text :=
  '"' :: s.flatMap escapePoint ++ ['"']

def newline (level : Nat) : Text :=
  '\n' :: List.replicate (2 * level) ' '

/-- Digits with a point after some of them, or with an exponent if it would be too far away. -/
def layOut (digits : Text) (before : Int) : Text :=
  if before ≤ -4 ∨ 16 < before then
    let exponent := before - 1
    let size := natural exponent.natAbs
    digits.take 1 ++ (if digits.length ≤ 1 then [] else '.' :: digits.drop 1)
      ++ 'e' :: (if exponent < 0 then '-' else '+')
      :: List.replicate (2 - size.length) '0' ++ size
  else if before ≤ 0 then '0' :: '.' :: List.replicate (-before).toNat '0' ++ digits
  else
    let n := before.toNat
    digits.take n ++ List.replicate (n - digits.length) '0'
      ++ '.' :: (if digits.length ≤ n then ['0'] else digits.drop n)

def minus (negative : Bool) : Text :=
  if negative then ['-'] else []

def renderReal : Binary64 → Text
  | .nan => "NaN".toList
  | .infinite negative => minus negative ++ "Infinity".toList
  | .finite negative multiple exponent =>
    if multiple = 0 then minus negative ++ "0.0".toList
    else
      let (digits, before) := Binary64.digitsOf multiple exponent
      minus negative ++ layOut digits before

mutual

def render (level : Nat) : Json → Text
  | null => "null".toList
  | bool true => "true".toList
  | bool false => "false".toList
  | int n => integer n
  | real x => renderReal x
  | str s => quote s
  | arr [] => ['[', ']']
  | arr (v :: vs) =>
    '[' :: newline (level + 1) ++ render (level + 1) v ++ renderItems (level + 1) vs
      ++ newline level ++ [']']
  | obj [] => ['\x7b', '\x7d']
  | obj ((k, v) :: fs) =>
    '\x7b' :: newline (level + 1) ++ quote k ++ ':' :: ' ' :: render (level + 1) v
      ++ renderFields (level + 1) fs ++ newline level ++ ['\x7d']

/-- The items of an array after the first. -/
def renderItems (level : Nat) : List Json → Text
  | [] => []
  | v :: vs => ',' :: newline level ++ render level v ++ renderItems level vs

/-- The fields of an object after the first. -/
def renderFields (level : Nat) : List (Str × Json) → Text
  | [] => []
  | (k, v) :: fs =>
    ',' :: newline level ++ quote k ++ ':' :: ' ' :: render level v ++ renderFields level fs

end

def print (j : Json) : Text :=
  render 0 j

/-! ## Chunk by chunk -/

/-- What a value goes out in: a text, or why there is none. -/
abbrev Chunk := Except Failure Text

def isNested : Json → Bool
  | arr _ | obj _ => true
  | _ => false

/-- The chunks of what stands between brackets, unless that is one level too many. -/
def inside (depth : Nat) (ps : List Chunk) : List Chunk :=
  if depth = 0 then [.error .tooDeep] else ps

/-- The chunks of an item behind a text. The text goes out by itself before an array or an object,
and else with the item. -/
def behind (lead : Text) (v : Json) (ps : List Chunk) : List Chunk :=
  if v.isNested then .ok lead :: ps else ps.map fun p => p.map (lead ++ ·)

mutual

/-- The chunks of a value at a level that may be nested `depth` deep. -/
def chunks (depth level : Nat) : Json → List Chunk
  | int n =>
    [if (natural n.natAbs).length ≤ maxDigits then .ok (integer n) else .error .notNumber]
  | arr [] => inside depth [.ok ['[', ']']]
  | arr (v :: vs) => inside depth <|
    behind ('[' :: newline (level + 1)) v (chunks (depth - 1) (level + 1) v)
      ++ itemChunks (depth - 1) (level + 1) vs ++ [.ok (newline level ++ [']'])]
  | obj [] => inside depth [.ok ['\x7b', '\x7d']]
  | obj ((k, v) :: fs) => inside depth <|
    .ok ('\x7b' :: newline (level + 1) ++ quote k ++ [':', ' '])
      :: chunks (depth - 1) (level + 1) v
      ++ fieldChunks (depth - 1) (level + 1) fs ++ [.ok (newline level ++ ['\x7d'])]
  | v => [.ok (render level v)]

/-- The chunks of the items of an array after the first. -/
def itemChunks (depth level : Nat) : List Json → List Chunk
  | [] => []
  | v :: vs =>
    behind (',' :: newline level) v (chunks depth level v) ++ itemChunks depth level vs

/-- The chunks of the fields of an object after the first. -/
def fieldChunks (depth level : Nat) : List (Str × Json) → List Chunk
  | [] => []
  | (k, v) :: fs =>
    .ok (',' :: newline level ++ quote k ++ [':', ' ']) :: chunks depth level v
      ++ fieldChunks depth level fs

end

/-- What came of writing chunks, and the text that is written. -/
def writeOut : List Chunk → Except Failure Unit × Text
  | [] => (.ok (), [])
  | .ok t :: ps => ((writeOut ps).1, t ++ (writeOut ps).2)
  | .error e :: _ => (.error e, [])

/-- What comes of writing a value that may be nested `depth` deep, and the text that is written. -/
def written (depth : Nat) (v : Json) : Except Failure Unit × Text :=
  writeOut (chunks depth 0 v)

end AsmLens.Json
