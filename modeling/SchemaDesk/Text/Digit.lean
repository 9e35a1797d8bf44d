import SchemaDesk.Text.Toggle

/-!
# Decimal digits of every script

Each script with decimal digits has its ten digits in one run from zero to nine, so the table lists
the zeros.  Superscripts, circled digits and their like are digits without a decimal value: they are
recognised by `isDigit` and have no `digitValue?`.
-/

namespace SchemaDesk.Text

/-- The code points of the digit zero of every script. -/
def digitZeros : List Nat :=
  [48, 1632, 1776, 1984, 2406, 2534, 2662, 2790, 2918, 3046, 3174, 3302, 3430, 3558, 3664, 3792,
    3872, 4160, 4240, 6112, 6160, 6470, 6608, 6784, 6800, 6992, 7088, 7232, 7248, 42528, 43216,
    43264, 43472, 43504, 43600, 44016, 65296, 66720, 68912, 69734, 69872, 69942, 70096, 70384,
    70736, 70864, 71248, 71360, 71472, 71904, 72016, 72784, 73040, 73120, 92768, 92864, 93008,
    120782, 120792, 120802, 120812, 120822, 123200, 123632, 125264, 130032]

/-- The value of a decimal digit of any script. -/
def digitValue? (c : Char) : Option Nat :=
  if c.toNat < 128 then if c.isDigit then some (c.toNat - 48) else none
  else (digitZeros.find? fun z => z ≤ c.toNat && c.toNat < z + 10).map (c.toNat - ·)

/-- The digits without a decimal value, as switching points. -/
def undecimalDigits : List Nat :=
  [178, 180, 185, 186, 4969, 4978, 6618, 6619, 8304, 8305, 8308, 8314, 8320, 8330, 9312, 9321,
    9332, 9341, 9352, 9361, 9450, 9451, 9461, 9470, 9471, 9472, 10102, 10111, 10112, 10121, 10122,
    10131, 68160, 68164, 69216, 69225, 69714, 69723, 127232, 127243]

/-- A digit of any script, with or without a decimal value. -/
def isDigit (c : Char) : Bool :=
  (digitValue? c).isSome || Toggle.memberFrom false undecimalDigits c.toNat

/-- The number written by decimal digits, most significant first; digits of different scripts may
be mixed.  A character without a decimal value gives `none`. -/
def digitsValue? (cs : List Char) : Option Nat :=
  cs.foldlM (fun n c => (digitValue? c).map (10 * n + ·)) 0

@[simp] theorem digitsValue?_nil : digitsValue? [] = some 0 := rfl

example : digitValue? '7' = some 7 := by decide
example : digitValue? '٣' = some 3 := by decide
example : isDigit '²' = true ∧ digitValue? '²' = none := by decide

end SchemaDesk.Text
