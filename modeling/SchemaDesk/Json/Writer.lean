import SchemaDesk.Value.Display

/-!
# Writing JSON

The written form of values, in ASCII: every other code point is escaped by its UTF-16 units.
Objects keep the order of their entries, and floating-point numbers keep their point or exponent,
so that reading gives the value back.  The text is either one line or laid out with indentation.
-/

namespace SchemaDesk.Json

/-- The escape of one UTF-16 unit. -/
def escapedUnit (n : Nat) : List Char :=
  '\\' :: 'u' :: Value.hexadecimal 4 n

/-- One character of a text. -/
def writtenChar (c : Char) : List Char :=
  if c = '"' ∨ c = '\\' then ['\\', c]
  else if c = '\n' then ['\\', 'n']
  else if c = '\r' then ['\\', 'r']
  else if c = '\t' then ['\\', 't']
  else if c = '\x0c' then ['\\', 'f']
  else if c = '\x08' then ['\\', 'b']
  else if 32 ≤ c.toNat ∧ c.toNat < 127 then [c]
  else if c.toNat < 0x10000 then escapedUnit c.toNat
  else
    let n := c.toNat - 0x10000
    escapedUnit (0xD800 + n / 0x400) ++ escapedUnit (0xDC00 + n % 0x400)

/-- One code point of a text. -/
def writtenCode : CodePoint → List Char
  | .char c => writtenChar c
  | c => escapedUnit c.toNat

/-- A text in quotes. -/
def writtenText (t : Text) : List Char :=
  '"' :: (t.flatMap writtenCode ++ ['"'])

/-- A floating-point number; those without digits have names. -/
def writtenFloat : Binary64 → List Char
  | .nan => "NaN".toList
  | .infinite negative => (if negative then "-Infinity" else "Infinity").toList
  | x => x.text.toList

/-- A line break and the indentation of a level, or nothing in a text of one line. -/
def lineBreak (indent : Option Nat) (level : Nat) : List Char :=
  match indent with
  | none => []
  | some width => '\n' :: List.replicate (width * level) ' '

/-- The text between a key and its value. -/
def keySeparator (indent : Option Nat) : List Char :=
  if indent.isSome then [':', ' '] else [':']

/-- Pieces with commas and line breaks between them. -/
def joined (separator : List Char) : List (List Char) → List Char
  | [] => []
  | [piece] => piece
  | piece :: rest => piece ++ separator ++ joined separator rest

/-- Written pieces between brackets, one to a line. -/
def enclosed (indent : Option Nat) (level : Nat) (opening closing : Char)
    (pieces : List (List Char)) : List Char :=
  if pieces.isEmpty then [opening, closing]
  else
    opening :: (lineBreak indent (level + 1) ++
      joined (',' :: lineBreak indent (level + 1)) pieces ++ lineBreak indent level ++ [closing])

mutual

/-- A value at a level of indentation. -/
def written (indent : Option Nat) (level : Nat) : Value → List Char
  | .null => "null".toList
  | .bool b => (if b then "true" else "false").toList
  | .int i => (toString i).toList
  | .float x => writtenFloat x
  | .str s => writtenText s
  | .list items => enclosed indent level '[' ']' (writtenItems indent level items)
  | .object entries => enclosed indent level '\x7b' '\x7d' (writtenEntries indent level entries)

/-- The items of a list, one level further in. -/
def writtenItems (indent : Option Nat) (level : Nat) : List Value → List (List Char)
  | [] => []
  | v :: rest => written indent (level + 1) v :: writtenItems indent level rest

/-- The entries of an object, one level further in. -/
def writtenEntries (indent : Option Nat) (level : Nat) :
    List (Text × Value) → List (List Char)
  | [] => []
  | (key, v) :: rest =>
      (writtenText key ++ keySeparator indent ++ written indent (level + 1) v) ::
        writtenEntries indent level rest

end

/-- A value on one line. -/
def compact (v : Value) : String :=
  String.ofList (written none 0 v)

/-- A value with two spaces of indentation to a level. -/
def indented (v : Value) : String :=
  String.ofList (written (some 2) 0 v)

end SchemaDesk.Json
