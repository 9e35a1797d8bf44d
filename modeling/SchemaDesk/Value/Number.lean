import SchemaDesk.Number.Numeral
import SchemaDesk.Problem.Basic

/-!
# Values as numbers

Where a number is needed, a truth value counts as 0 or 1 and a text is read as a numeral; null,
lists and objects are of the wrong type.  An integer is obtained from a floating-point number by
dropping its fraction.
-/

namespace SchemaDesk.Value

/-- The integer that a value stands for. -/
def toInteger : Value → Except Failure Int
  | .bool b => .ok (if b then 1 else 0)
  | .int i => .ok i
  | .float x =>
      match x, x.truncate? with
      | _, some i => .ok i
      | .nan, none => .error .badNumber
      | _, none => .error .tooLarge
  | .str s =>
      match Numeral.toInt? s with
      | some i => .ok i
      | none => .error (.notInteger s)
  | _ => .error .wrongType

/-- The floating-point number nearest to an integer. -/
def floatOfInt (i : Int) : Except Failure Binary64 :=
  match Binary64.ofInt? i with
  | some x => .ok x
  | none => .error .tooLarge

/-- The floating-point number that a value stands for. -/
def toBinary64 : Value → Except Failure Binary64
  | .bool b => floatOfInt (if b then 1 else 0)
  | .int i => floatOfInt i
  | .float x => .ok x
  | .str s =>
      match Numeral.toBinary64? s with
      | some x => .ok x
      | none => .error (.notReal s)
  | _ => .error .wrongType

/-- Whether a number is at most zero.  Text is no number here. -/
def isNotPositive : Value → Except Failure Bool
  | .bool b => .ok (!b)
  | .int i => .ok (decide (i ≤ 0))
  | .float x => .ok x.isNotPositive
  | _ => .error .wrongType

end SchemaDesk.Value
