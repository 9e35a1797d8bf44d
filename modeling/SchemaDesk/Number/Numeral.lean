import SchemaDesk.Number.Binary64
import SchemaDesk.Text.Blank
import SchemaDesk.Text.Digit

/-!
# Numbers written as text

Reading of whole numbers and of floating-point numbers from text typed by a person.  Digits of any
script count, blanks around the number are ignored, and single underscores may stand between
digits.  A whole number has at most `Numeral.maxDigits` digits.
-/

namespace SchemaDesk.Numeral

/-- Digits and blanks outside ASCII are replaced by their ASCII counterparts. -/
def plain (c : Char) : Char :=
  if c.toNat < 128 then c
  else if Text.isBlank c then ' '
  else match Text.digitValue? c with
    | some n => Char.ofNat (48 + n)
    | none => c

/-- The blanks that may surround a number, after `plain`. -/
def isPadding (c : Char) : Bool :=
  c = ' ' || (9 ≤ c.toNat && c.toNat ≤ 13)

/-- The text in ASCII digits, without the blanks around it. -/
def normalize (cs : List Char) : List Char :=
  ((cs.map plain).dropWhile isPadding).reverse.dropWhile isPadding |>.reverse

/-- Splits off a sign; the flag tells whether it is a minus. -/
def takeSign : List Char → Bool × List Char
  | '-' :: rest => (true, rest)
  | '+' :: rest => (false, rest)
  | cs => (false, cs)

/-- The leading digits, with single underscores between digits left out, and what follows them. -/
def takeDigits : List Char → List Char × List Char
  | [] => ([], [])
  | [c] => if c.isDigit then ([c], []) else ([], [c])
  | c :: d :: rest =>
      if !c.isDigit then ([], c :: d :: rest)
      else if d = '_' then
        if (rest.head?.map Char.isDigit).getD false then
          let (digits, left) := takeDigits rest
          (c :: digits, left)
        else ([c], d :: rest)
      else
        let (digits, left) := takeDigits (d :: rest)
        (c :: digits, left)

/-- The value of a run of ASCII digits. -/
def value (digits : List Char) : Nat :=
  digits.foldl (fun n d => 10 * n + (d.toNat - 48)) 0

/-- The most digits a whole number may have, leading zeros included. -/
def maxDigits : Nat := 4300

/-- The whole number that a text writes. -/
def toInt? (t : Text) : Option Int := do
  let cs ← t.chars?
  let (negative, body) := takeSign (normalize cs)
  match takeDigits body with
  | ([], _) => none
  | (digits, []) =>
      if digits.length ≤ maxDigits then
        some (if negative then -(value digits : Int) else value digits)
      else none
  | _ => none

/-- The value of an exponent part, `e` with an optional sign and digits; an absent part is zero. -/
def exponent? : List Char → Option Int
  | [] => some 0
  | e :: rest =>
      if e = 'e' ∨ e = 'E' then
        let (negative, body) := takeSign rest
        match takeDigits body with
        | ([], _) => none
        | (digits, []) => some (if negative then -(value digits : Int) else value digits)
        | _ => none
      else none

/-- The number written as digits with an optional fraction and exponent. -/
def decimal? (negative : Bool) (body : List Char) : Option Binary64 := do
  let (whole, rest) := takeDigits body
  let (fraction, rest) :=
    match rest with
    | '.' :: after => takeDigits after
    | _ => ([], rest)
  if whole.isEmpty && fraction.isEmpty then none
  let power ← exponent? rest
  some (.ofDecimal negative (value (whole ++ fraction)) (power - fraction.length))

/-- The floating-point number that a text writes, by digits or by the words for infinity and for
the value that is not a number. -/
def toBinary64? (t : Text) : Option Binary64 := do
  let cs ← t.chars?
  let (negative, body) := takeSign (normalize cs)
  let word := String.ofList (body.map Char.toLower)
  if word = "inf" ∨ word = "infinity" then some (.infinite negative)
  else if word = "nan" then some .nan
  else decimal? negative body

end SchemaDesk.Numeral
