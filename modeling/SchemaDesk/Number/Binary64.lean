/-!
# Binary floating-point numbers of 64 bits

A finite number is kept as sign, mantissa and binary exponent: the value is
`± mantissa · 2 ^ exponent`, with a mantissa below `2 ^ 53` and an exponent of at least `-1074`.
Every number built here is in the one canonical form of its value: either the mantissa is at least
`2 ^ 52` or the exponent is `-1074`.  So equality of representations tells apart exactly the
numbers that are different, the two zeros included.

All rounding is to the nearest number, ties to the even mantissa, and is done exactly on natural
numbers.
-/

namespace SchemaDesk

/-- A 64-bit binary floating-point number. -/
inductive Binary64 where
  | nan
  | infinite (negative : Bool)
  | finite (negative : Bool) (mantissa : Nat) (exponent : Int)
  deriving DecidableEq, Repr

namespace Binary64

/-- `num / den`, rounded to the nearest natural number, ties to the even one. -/
def roundDiv (num den : Nat) : Nat :=
  let q := num / den
  let r := num % den
  if 2 * r < den then q
  else if den < 2 * r then q + 1
  else q + q % 2

/-- A power of ten. -/
def tenTo (n : Nat) : Nat :=
  Nat.pow 10 n

/-- The least mantissa of a number that has all its binary digits, `2 ^ 52`. -/
def leastMantissa : Nat := 4503599627370496

/-- What every mantissa is less than, `2 ^ 53`. -/
def mantissaBound : Nat := 9007199254740992

/-- Numerator and denominator of `num / den` in units of `2 ^ exponent`. -/
def inUnits (num den : Nat) (exponent : Int) : Nat × Nat :=
  if 0 ≤ exponent then (num, den <<< exponent.toNat) else (num <<< (-exponent).toNat, den)

/-- A zero of the given sign. -/
def zero (negative : Bool) : Binary64 :=
  .finite negative 0 (-1074)

/-- The number one. -/
def one : Binary64 :=
  .finite false leastMantissa (-52)

/-- The number nearest to `± num / den`.  The exponent first tried makes the quotient at least
`2 ^ 52`, unless it is the least exponent there is; one more is enough to make it less than
`2 ^ 53`.  A quotient that rounds up to `2 ^ 53` moves to the next exponent, and from
`2 ^ 1024` on the number is infinite. -/
def ofRatio (negative : Bool) (num den : Nat) : Binary64 :=
  if num = 0 then zero negative
  else
    let first : Int := max ((num.log2 : Int) - (den.log2 : Int) - 53) (-1074)
    let (n, d) := inUnits num den first
    let exponent := if n / d < mantissaBound then first else first + 1
    let (n, d) := inUnits num den exponent
    let mantissa := roundDiv n d
    let (mantissa, exponent) :=
      if mantissa = mantissaBound then (leastMantissa, exponent + 1) else (mantissa, exponent)
    if 971 < exponent then .infinite negative else .finite negative mantissa exponent

/-- The number nearest to `± digits · 10 ^ power`.  Powers far outside the range are decided by
their size alone, so no huge power is ever computed. -/
def ofDecimal (negative : Bool) (digits : Nat) (power : Int) : Binary64 :=
  if digits = 0 then zero negative
  else if 400 < power then .infinite negative
  else if power + digits.log2 < -1200 then zero negative
  else if 0 ≤ power then ofRatio negative (digits * tenTo power.toNat) 1
  else ofRatio negative digits (tenTo (-power).toNat)

/-- The number nearest to an integer; `none` when the integer is too large for any. -/
def ofInt? (i : Int) : Option Binary64 :=
  match ofRatio (decide (i < 0)) i.natAbs 1 with
  | .infinite _ => none
  | x => some x

/-- The integer part, toward zero; `none` for a number that is not finite. -/
def truncate? : Binary64 → Option Int
  | .finite negative mantissa exponent =>
      let magnitude :=
        if 0 ≤ exponent then mantissa <<< exponent.toNat else mantissa >>> (-exponent).toNat
      some (if negative then -(magnitude : Int) else magnitude)
  | _ => none

/-- The integer that a number is equal to, if it is equal to one. -/
def toInt? : Binary64 → Option Int
  | .finite negative mantissa exponent =>
      if 0 ≤ exponent ∨ mantissa % (1 <<< (-exponent).toNat) = 0 then
        truncate? (.finite negative mantissa exponent)
      else none
  | _ => none

/-- Whether a number is one of the two zeros. -/
def isZero : Binary64 → Bool
  | .finite _ mantissa _ => mantissa == 0
  | _ => false

/-- Whether a number is at most zero; `nan` is not. -/
def isNotPositive : Binary64 → Bool
  | .nan => false
  | .infinite negative => negative
  | .finite negative mantissa _ => negative || mantissa == 0

example : ofDecimal false 5 (-1) = .finite false leastMantissa (-53) := by decide +kernel
example : ofInt? 1 = some one := by decide +kernel
example : ofDecimal false 5 (-324) = .finite false 1 (-1074) := by decide +kernel
example : (ofDecimal true 35 (-1)).truncate? = some (-3) := by decide +kernel

end Binary64

end SchemaDesk
