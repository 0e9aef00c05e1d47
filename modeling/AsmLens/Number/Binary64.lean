import AsmLens.Text.Numeral

/-!
# Binary fractions

Numbers of 53 significant bits and a limited exponent, two infinities, and what is no number. A
numeral stands for the nearest of them, of two at the same distance for the one whose last bit is 0.
-/

namespace AsmLens

open Text

/-- A number of 53 significant bits, an infinity, or no number. -/
inductive Binary64 where
  | nan
  | infinite (negative : Bool)
  /-- A sign and the multiple of a power of two. -/
  | finite (negative : Bool) (multiple : Nat) (exponent : Int)
deriving DecidableEq, Repr, Inhabited

namespace Binary64

/-! ## Rounding -/

/-- The quotient rounded to the nearest whole number, a half to the even one. -/
def roundHalfEven (num den : Nat) : Nat :=
  let q := num / den
  let r := 2 * (num % den)
  if r < den then q
  else if den < r then q + 1
  else q + q % 2

/-- The exponent of the last of 53 bits of a positive quotient, but not less than the smallest. -/
def lastBit (num den : Nat) : Int :=
  let estimate : Int := (Nat.log2 num : Int) - Nat.log2 den - 52
  let fits : Bool :=
    if 0 ≤ estimate then decide (den <<< (estimate + 52).toNat ≤ num)
    else decide (den <<< 52 ≤ num <<< (-estimate).toNat)
  max (if fits then estimate else estimate - 1) (-1074)

/-- A multiple of at most 53 bits, or one more than those, as a number. -/
def ofMultiple (negative : Bool) (multiple : Nat) (exponent : Int) : Binary64 :=
  if multiple = 1 <<< 53 then bounded (1 <<< 52) (exponent + 1) else bounded multiple exponent
where
  /-- The largest exponent of 53 bits is 971. -/
  bounded (multiple : Nat) (exponent : Int) : Binary64 :=
    if 971 < exponent then infinite negative else finite negative multiple exponent

/-- The number nearest to a quotient. -/
def ofQuotient (negative : Bool) (num den : Nat) : Binary64 :=
  if num = 0 then finite negative 0 (-1074)
  else
    let k := lastBit num den
    ofMultiple negative
      (if 0 ≤ k then roundHalfEven num (den <<< k.toNat)
        else roundHalfEven (num <<< (-k).toNat) den) k

/-- The number nearest to a multiple of a power of ten. -/
def ofDecimal (negative : Bool) (multiple : Nat) (exponent : Int) : Binary64 :=
  if 0 ≤ exponent then ofQuotient negative (multiple * Nat.pow 10 exponent.toNat) 1
  else ofQuotient negative multiple (Nat.pow 10 (-exponent).toNat)

/-! ## Reading -/

/-- The value of an exponent: a sign that may be missing, and digits. -/
def exponentValue (s : Text) : Int :=
  let value (ds : Text) : Nat := ofDigits (ds.map fun c => c.toNat - 48)
  match s with
  | '-' :: ds => -(value ds : Int)
  | '+' :: ds => value ds
  | ds => value ds

/-- The number that an unsigned numeral stands for: digits, of which some may follow a point, and
perhaps an exponent. Exponents beyond all numbers are not multiplied out. -/
def ofUnsigned (negative : Bool) (s : Text) : Binary64 :=
  let isMark (c : Char) : Bool := c == 'e' || c == 'E'
  let mantissa := s.takeWhile fun c => !isMark c
  let whole := mantissa.takeWhile (· != '.')
  let fraction := (mantissa.dropWhile (· != '.')).drop 1
  let digits := ofDigits ((whole ++ fraction).map fun c => c.toNat - 48)
  let exponent := exponentValue ((s.dropWhile fun c => !isMark c).drop 1) - fraction.length
  if digits = 0 ∨ exponent + (whole ++ fraction).length < -400 then finite negative 0 (-1074)
  else if 400 < exponent then infinite negative
  else ofDecimal negative digits exponent

def ofNumeral : Text → Binary64
  | '-' :: s => ofUnsigned true s
  | s => ofUnsigned false s

/-! ## Use -/

def isZero : Binary64 → Bool
  | finite _ multiple _ => multiple == 0
  | _ => false

/-- The whole part of a number, cut towards zero. -/
def wholePart? : Binary64 → Option Int
  | finite negative multiple exponent =>
    let n : Nat :=
      if 0 ≤ exponent then multiple <<< exponent.toNat else multiple >>> (-exponent).toNat
    some (if negative then -(n : Int) else n)
  | _ => none

end Binary64

end AsmLens
