import SchemaDesk.Number.Binary64

/-!
# The shortest decimal text of a floating-point number

A finite number is written with the fewest significant digits that read back as the same number;
among those the digits nearest to its exact value are taken, and of two equally near ones the even.

The digits are searched for, not computed by a special algorithm: for each count of digits the two
neighbours of the exact value on the decimal grid of that many digits are read back.
-/

namespace SchemaDesk.Binary64

/-- The exact magnitude of a finite number as a fraction. -/
def magnitude (mantissa : Nat) (exponent : Int) : Nat × Nat :=
  if 0 ≤ exponent then (mantissa <<< exponent.toNat, 1) else (mantissa, 1 <<< (-exponent).toNat)

/-- The exponent of the leading decimal digit of a positive fraction not below `10 ^ -400`. -/
def leadingPower (num den : Nat) : Int :=
  ((Nat.toDigits 10 (num * tenTo 400 / den)).length : Int) - 401

/-- The neighbour of `num / den` on the grid of multiples of `10 ^ power` that reads back as
`number`, as a multiple of the grid's unit.  Where both do, the nearer one is taken. -/
def gridPoint? (number : Binary64) (num den : Nat) (power : Int) : Option Nat :=
  let (n, d) :=
    if 0 ≤ power then (num, den * tenTo power.toNat) else (num * tenTo (-power).toNat, den)
  let below := n / d
  let readsBack (k : Nat) : Bool := ofDecimal false k power == number
  match readsBack below, readsBack (below + 1) with
  | true, true => some (roundDiv n d)
  | true, false => some below
  | false, true => some (below + 1)
  | false, false => none

/-- The first grid with a point that reads back, trying `count` grids, each ten times finer than
the one before. -/
def shortestFrom (number : Binary64) (num den : Nat) : Nat → Int → Nat × Int
  | 0, power => (num / den, power)
  | count + 1, power =>
      match gridPoint? number num den power with
      | some digits => (digits, power)
      | none => shortestFrom number num den count (power - 1)

/-- The shortest digits of a positive finite number and the power of ten of the last of them. -/
def shortest (mantissa : Nat) (exponent : Int) : Nat × Int :=
  let (num, den) := magnitude mantissa exponent
  shortestFrom (.finite false mantissa exponent) num den 17 (leadingPower num den)

/-! ## The written form -/

/-- How numbers are laid out: positional between these two powers of the leading digit, the lower
one included, and with an exponent of at least two digits elsewhere. -/
structure Layout where
  positionalFrom : Int
  positionalBelow : Int
  exponentDigits : Nat

/-- Positional notation from `0.0001` up to, and without, `10 ^ 16`. -/
def layout : Layout :=
  ⟨-4, 16, 2⟩

/-- Digits in positional notation, with `point` of them before the point and at least one digit
on each side of it. -/
def positional (digits : List Char) (point : Int) : List Char :=
  if point ≤ 0 then '0' :: '.' :: (List.replicate (-point).toNat '0' ++ digits)
  else if digits.length ≤ point.toNat then
    digits ++ List.replicate (point.toNat - digits.length) '0' ++ ['.', '0']
  else digits.take point.toNat ++ '.' :: digits.drop point.toNat

/-- Digits in exponent notation; the exponent always has a sign.  Without digits it is a zero. -/
def scientific (digits : List Char) (power : Int) (exponentDigits : Nat) : List Char :=
  let exponent := Nat.toDigits 10 power.natAbs
  let padded := List.replicate (exponentDigits - exponent.length) '0' ++ exponent
  let sign := if power < 0 then '-' else '+'
  match digits with
  | [] => ['0']
  | [d] => d :: 'e' :: sign :: padded
  | d :: rest => d :: '.' :: (rest ++ 'e' :: sign :: padded)

/-- The text of a number. -/
def text : Binary64 → String
  | .nan => "nan"
  | .infinite negative => if negative then "-inf" else "inf"
  | .finite negative mantissa exponent =>
      let unsigned :=
        if mantissa = 0 then ['0', '.', '0']
        else
          let (value, power) := shortest mantissa exponent
          let digits := Nat.toDigits 10 value
          let leading := power + digits.length - 1
          let significant := (digits.reverse.dropWhile (· == '0')).reverse
          if layout.positionalFrom ≤ leading ∧ leading < layout.positionalBelow then
            positional significant (leading + 1)
          else scientific significant leading layout.exponentDigits
      String.ofList (if negative then '-' :: unsigned else unsigned)

end SchemaDesk.Binary64
