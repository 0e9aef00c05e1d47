import AsmLens.Text.Blank

/-!
# UTF-8

`encode` writes text as bytes. `scan` reads bytes back: each step takes one character, or the
longest malformed prefix (at least one byte) that could have begun one. `decode?` accepts
well-formed bytes alone; `decodeLossy` puts U+FFFD in the place of each malformed prefix.
-/

namespace AsmLens.Text

/-- A byte that follows the first: the last six bits of `n`. -/
def laterByte (n : Nat) : UInt8 :=
  UInt8.ofNat (0x80 + n % 64)

def encodeChar (c : Char) : List UInt8 :=
  let n := c.toNat
  if n < 0x80 then [UInt8.ofNat n]
  else if n < 0x800 then [UInt8.ofNat (0xc0 + n / 64), laterByte n]
  else if n < 0x10000 then [UInt8.ofNat (0xe0 + n / 0x1000), laterByte (n / 64), laterByte n]
  else [UInt8.ofNat (0xf0 + n / 0x40000), laterByte (n / 0x1000), laterByte (n / 64), laterByte n]

def encode (s : Text) : List UInt8 :=
  s.flatMap encodeChar

/-- What a first byte asks for: the bits it gives, the range of the second byte, and how many
bytes follow the second. -/
def leadByte? (b : Nat) : Option (Nat × Nat × Nat × Nat) :=
  if 0xc2 ≤ b ∧ b ≤ 0xdf then some (b - 0xc0, 0x80, 0xbf, 0)
  else if b = 0xe0 then some (0, 0xa0, 0xbf, 1)
  else if b = 0xed then some (0xd, 0x80, 0x9f, 1)
  else if 0xe1 ≤ b ∧ b ≤ 0xef then some (b - 0xe0, 0x80, 0xbf, 1)
  else if b = 0xf0 then some (0, 0x90, 0xbf, 2)
  else if 0xf1 ≤ b ∧ b ≤ 0xf3 then some (b - 0xf0, 0x80, 0xbf, 2)
  else if b = 0xf4 then some (4, 0x80, 0x8f, 2)
  else none

/-- Reads `k` more bytes of a character whose first bytes gave `n`: its code point, if they are
all there, and how many bytes belong to it. -/
def moreBytes (n : Nat) : Nat → List UInt8 → Option Nat × Nat
  | 0, _ => (some n, 0)
  | k + 1, b :: bs =>
    if 0x80 ≤ b.toNat ∧ b.toNat ≤ 0xbf then
      let (m, used) := moreBytes (n * 64 + (b.toNat - 0x80)) k bs
      (m, used + 1)
    else (none, 0)
  | _ + 1, [] => (none, 0)

/-- The first character, if it is well formed, and how many bytes after the first it takes. -/
def firstChar (b : UInt8) (bs : List UInt8) : Option Char × Nat :=
  if b.toNat < 0x80 then (some (Char.ofNat b.toNat), 0)
  else match leadByte? b.toNat, bs with
    | some (n, lo, hi, k), c :: cs =>
      if lo ≤ c.toNat ∧ c.toNat ≤ hi then
        let (m, used) := moreBytes (n * 64 + (c.toNat - 0x80)) k cs
        (m.map Char.ofNat, used + 1)
      else (none, 0)
    | _, _ => (none, 0)

/-- The characters of a sequence of bytes, `none` for each malformed prefix. -/
def scan : List UInt8 → List (Option Char)
  | [] => []
  | b :: bs => (firstChar b bs).1 :: scan (bs.drop (firstChar b bs).2)
termination_by bs => bs.length
decreasing_by simp only [List.length_drop, List.length_cons]; omega

/-- The text of well-formed bytes. -/
def decode? (bs : List UInt8) : Option Text :=
  (scan bs).mapM id

/-- The text of any bytes, with U+FFFD for each malformed prefix. -/
def decodeLossy (bs : List UInt8) : Text :=
  (scan bs).map fun c => c.getD '\ufffd'

end AsmLens.Text
