import SchemaDesk.Number.Shortest
import SchemaDesk.Text.Printable
import SchemaDesk.Value.Basic

/-!
# Values as text

How a value reads inside a message or a name.  A text stands for itself at the top and is quoted
inside a list or an object.  Quotes are single, or double where the text has single quotes and no
double ones; code points that are not printable characters are written by their numbers.
-/

namespace SchemaDesk.Value

/-- Hexadecimal digits, padded with zeros to a width. -/
def hexadecimal (width n : Nat) : List Char :=
  let digits := Nat.toDigits 16 n
  List.replicate (width - digits.length) '0' ++ digits

/-- A code point by its number. -/
def escapedCode (n : Nat) : Text :=
  .ofChars (if n < 0x100 then '\\' :: 'x' :: hexadecimal 2 n
    else if n < 0x10000 then '\\' :: 'u' :: hexadecimal 4 n
    else '\\' :: 'U' :: hexadecimal 8 n)

/-- One code point of a quoted text. -/
def quotedCode (quote : Char) (c : CodePoint) : Text :=
  if c = '\\' ∨ c = quote then ['\\', c]
  else if c = '\n' then "\\n"
  else if c = '\r' then "\\r"
  else if c = '\t' then "\\t"
  else if c.is Text.isPrintable then [c]
  else escapedCode c.toNat

/-- A text in quotes. -/
def quotedText (t : Text) : Text :=
  let quote := if t.contains '\'' && !t.contains '"' then '"' else '\''
  quote :: (t.flatMap (quotedCode quote) ++ [.char quote])

mutual

/-- The text of a value inside another one. -/
def nestedText : Value → Text
  | .null => "None"
  | .bool b => if b then "True" else "False"
  | .int i => toString i
  | .float x => x.text
  | .str s => quotedText s
  | .list items => "[" ++ Text.join ", " (nestedTexts items) ++ "]"
  | .object entries => "\x7b" ++ Text.join ", " (nestedEntries entries) ++ "\x7d"

/-- The texts of the items of a list. -/
def nestedTexts : List Value → List Text
  | [] => []
  | v :: rest => nestedText v :: nestedTexts rest

/-- The texts of the entries of an object. -/
def nestedEntries : List (Text × Value) → List Text
  | [] => []
  | (key, v) :: rest => (quotedText key ++ ": " ++ nestedText v) :: nestedEntries rest

end

/-- The text of a value. -/
def text : Value → Text
  | .str s => s
  | v => nestedText v

@[simp] theorem text_str (s : Text) : (Value.str s).text = s := rfl

end SchemaDesk.Value
