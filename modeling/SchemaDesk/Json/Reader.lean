import SchemaDesk.Number.Numeral
import SchemaDesk.Text.Basic
import SchemaDesk.Value.Basic

/-!
# Reading JSON

A reader of JSON texts that is lenient in one way: the names `NaN`, `Infinity` and `-Infinity` stand
for the floating-point numbers they name.  A number without fraction and exponent is an integer of
any size up to the limit of `Numeral.maxDigits` digits.  Where a key occurs twice in an object, the
last value counts and the first position.  Lists and objects may be nested in one another up to
`maxDepth` levels.

The reader recurses on a bound for the number of its steps, which `parse` takes from the length of
the text.
-/

namespace SchemaDesk.Json

/-- Why a text is not read. -/
inductive Refusal where
  /-- The text is not JSON. -/
  | malformed
  /-- The text has an integer of too many digits. -/
  | tooManyDigits
  /-- The text has a list or an object inside too many others. -/
  | tooDeep
  deriving DecidableEq, Repr

/-- The most lists and objects that may be open at once. -/
def maxDepth : Nat := 985

/-- The text from the first character that is not JSON white space. -/
def skipSpace (cs : List Char) : List Char :=
  cs.dropWhile fun c => c = ' ' || c = '\t' || c = '\n' || c = '\r'

/-- The text after a given beginning, if it begins so. -/
def after? : List Char → List Char → Option (List Char)
  | [], cs => some cs
  | _ :: _, [] => none
  | x :: xs, c :: cs => if x = c then after? xs cs else none

/-! ## Strings -/

/-- The value of a hexadecimal digit. -/
def hexDigit? (c : Char) : Option Nat :=
  if '0' ≤ c ∧ c ≤ '9' then some (c.toNat - 48)
  else if 'a' ≤ c ∧ c ≤ 'f' then some (c.toNat - 87)
  else if 'A' ≤ c ∧ c ≤ 'F' then some (c.toNat - 55)
  else none

/-- The value of four hexadecimal digits. -/
def hexQuad? (a b c d : Char) : Option Nat := do
  let a ← hexDigit? a
  let b ← hexDigit? b
  let c ← hexDigit? c
  let d ← hexDigit? d
  some (((a * 16 + b) * 16 + c) * 16 + d)

/-- The character of a simple escape. -/
def escapeChar? (c : Char) : Option Char :=
  if c = '"' ∨ c = '\\' ∨ c = '/' then some c
  else if c = 'b' then some '\x08'
  else if c = 'f' then some '\x0c'
  else if c = 'n' then some '\n'
  else if c = 'r' then some '\r'
  else if c = 't' then some '\t'
  else none

/-- The second half of a surrogate pair whose first half is `high`, with the rest of the text, if
the text continues with one. -/
def lowSurrogate? (high : Nat) : List Char → Option (CodePoint × List Char)
  | '\\' :: 'u' :: a :: b :: c :: d :: rest =>
      match hexQuad? a b c d with
      | some low =>
          if 0xD800 ≤ high ∧ high ≤ 0xDBFF ∧ 0xDC00 ≤ low ∧ low ≤ 0xDFFF then
            some (.ofNat (0x10000 + (high - 0xD800) * 0x400 + (low - 0xDC00)), rest)
          else none
      | none => none
  | _ => none

/-- The rest of a string after its opening quote; an escape may stand for a surrogate.  The first
number bounds the steps. -/
def stringRest : Nat → List Char → Except Refusal (Text × List Char)
  | 0, _ => .error .malformed
  | steps + 1, cs =>
      match cs with
      | [] => .error .malformed
      | '"' :: rest => .ok ([], rest)
      | '\\' :: 'u' :: a :: b :: c :: d :: rest =>
          match hexQuad? a b c d with
          | none => .error .malformed
          | some unit => do
              let (code, rest) := (lowSurrogate? unit rest).getD (.ofNat unit, rest)
              let (more, rest) ← stringRest steps rest
              .ok (code :: more, rest)
      | '\\' :: e :: rest =>
          match escapeChar? e with
          | none => .error .malformed
          | some c => do
              let (more, rest) ← stringRest steps rest
              .ok (.char c :: more, rest)
      | c :: rest =>
          if c.toNat < 32 ∨ c = '\\' then .error .malformed
          else do
            let (more, rest) ← stringRest steps rest
            .ok (.char c :: more, rest)

/-! ## Numbers -/

/-- The digits at the start of a text, and what follows them. -/
def digits (cs : List Char) : List Char × List Char :=
  (cs.takeWhile Char.isDigit, cs.dropWhile Char.isDigit)

/-- A fraction, if the text continues with a point and a digit. -/
def fraction? : List Char → Option (List Char × List Char)
  | '.' :: rest => if (digits rest).1.isEmpty then none else some (digits rest)
  | _ => none

/-- An exponent, if the text continues with one that has a digit. -/
def exponent? : List Char → Option (Int × List Char)
  | e :: rest =>
      if e = 'e' ∨ e = 'E' then
        let (negative, body) := Numeral.takeSign rest
        let (ds, rest) := digits body
        if ds.isEmpty then none
        else some (if negative then -(Numeral.value ds : Int) else Numeral.value ds, rest)
      else none
  | [] => none

/-- A number without its sign. -/
def unsigned (negative : Bool) (cs : List Char) : Except Refusal (Value × List Char) :=
  let (whole, rest) := match cs with
    | '0' :: rest => (['0'], rest)
    | _ => digits cs
  if whole.isEmpty then .error .malformed
  else
    let (fraction, afterFraction) := (fraction? rest).getD ([], rest)
    let exponent := exponent? afterFraction
    if fraction.isEmpty && exponent.isNone then
      if whole.length ≤ Numeral.maxDigits then
        .ok (.int (if negative then -(Numeral.value whole : Int) else Numeral.value whole), rest)
      else .error .tooManyDigits
    else
      let (power, left) := exponent.getD (0, afterFraction)
      .ok (.float (.ofDecimal negative (Numeral.value (whole ++ fraction))
        (power - fraction.length)), left)

/-- The words that stand for values, with their values. -/
def names : List (String × Value) :=
  [("null", .null), ("true", .bool true), ("false", .bool false), ("NaN", .float .nan),
    ("Infinity", .float (.infinite false)), ("-Infinity", .float (.infinite true))]

/-- A name or a number. -/
def scalar (cs : List Char) : Except Refusal (Value × List Char) :=
  match names.findSome? fun (name, v) => (after? name.toList cs).map fun rest => (v, rest) with
  | some found => .ok found
  | none =>
      match cs with
      | '-' :: rest => unsigned true rest
      | _ => unsigned false cs

/-! ## Values -/

/-- Sets the value of a key: in its place if it is there, else at the end. -/
def setEntry (key : Text) (v : Value) : List (Text × Value) → List (Text × Value)
  | [] => [(key, v)]
  | (k, old) :: rest => if k = key then (k, v) :: rest else (k, old) :: setEntry key v rest

mutual

/-- A value inside some number of lists and objects. -/
def value : Nat → Nat → List Char → Except Refusal (Value × List Char)
  | 0, _, _ => .error .malformed
  | steps + 1, depth, cs =>
      match cs with
      | '"' :: rest => do
          let (s, rest) ← stringRest steps rest
          .ok (.str s, rest)
      | '[' :: rest =>
          if maxDepth ≤ depth then .error .tooDeep
          else
            match skipSpace rest with
            | ']' :: rest => .ok (.list [], rest)
            | rest => do
                let (items, rest) ← items steps (depth + 1) rest
                .ok (.list items, rest)
      | '\x7b' :: rest =>
          if maxDepth ≤ depth then .error .tooDeep
          else
            match skipSpace rest with
            | '\x7d' :: rest => .ok (.object [], rest)
            | rest => do
                let (entries, rest) ← members steps (depth + 1) [] rest
                .ok (.object entries, rest)
      | _ => scalar cs

/-- The items of a list up to its closing bracket; there is at least one. -/
def items : Nat → Nat → List Char → Except Refusal (List Value × List Char)
  | 0, _, _ => .error .malformed
  | steps + 1, depth, cs => do
      let (v, rest) ← value steps depth cs
      match skipSpace rest with
      | ']' :: rest => .ok ([v], rest)
      | ',' :: rest => do
          let (more, rest) ← items steps depth (skipSpace rest)
          .ok (v :: more, rest)
      | _ => .error .malformed

/-- The entries of an object up to its closing brace, added to those already read; there is at
least one. -/
def members : Nat → Nat → List (Text × Value) → List Char →
    Except Refusal (List (Text × Value) × List Char)
  | 0, _, _, _ => .error .malformed
  | steps + 1, depth, entries, cs =>
      match cs with
      | '"' :: rest => do
          let (key, rest) ← stringRest steps rest
          match skipSpace rest with
          | ':' :: rest => do
              let (v, rest) ← value steps depth (skipSpace rest)
              let entries := setEntry key v entries
              match skipSpace rest with
              | '\x7d' :: rest => .ok (entries, rest)
              | ',' :: rest => members steps depth entries (skipSpace rest)
              | _ => .error .malformed
          | _ => .error .malformed
      | _ => .error .malformed

end

/-- The value of a whole text, blanks around it allowed. -/
def parse (text : List Char) : Except Refusal Value := do
  let (v, rest) ← value (2 * text.length + 2) 0 (skipSpace text)
  if (skipSpace rest).isEmpty then .ok v else .error .malformed

end SchemaDesk.Json
