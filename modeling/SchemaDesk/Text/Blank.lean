import SchemaDesk.Text.Basic

/-!
# Blank characters

White space as this library understands it: the Unicode white space characters and the four
information separators U+001C to U+001F.  The zero-width space U+200B and the byte order mark
U+FEFF are not blank.  Trimming and splitting into words are stated with it.
-/

namespace SchemaDesk.Text

/-- White space of any script. -/
def isBlank (c : Char) : Bool :=
  let n := c.toNat
  (9 ≤ n && n ≤ 13) || (28 ≤ n && n ≤ 32) || n == 0x85 || n == 0xA0 || n == 0x1680 ||
    (0x2000 ≤ n && n ≤ 0x200A) || n == 0x2028 || n == 0x2029 || n == 0x202F || n == 0x205F ||
    n == 0x3000

/-- The text without the blanks at its start. -/
def trimLeft (t : Text) : Text :=
  t.dropWhile (·.is isBlank)

/-- The text without the blanks at its end. -/
def trimRight (t : Text) : Text :=
  (t.reverse.dropWhile (·.is isBlank)).reverse

/-- The text without the blanks at either end. -/
def trim (t : Text) : Text :=
  trimRight (trimLeft t)

/-- A text made of blanks only, the empty text included. -/
def isBlankText (t : Text) : Bool :=
  t.all (·.is isBlank)

/-- The maximal runs of code points that are not blank, in order.  The head of the result of
`wordsFrom` is the run that is still open. -/
def wordsFrom : Text → Text × List Text
  | [] => ([], [])
  | c :: rest =>
      let (current, later) := wordsFrom rest
      if c.is isBlank then ([], if current.isEmpty then later else current :: later)
      else (c :: current, later)

/-- The words of a text: its maximal runs of code points that are not blank. -/
def words (t : Text) : List Text :=
  let (current, later) := wordsFrom t
  if current.isEmpty then later else current :: later

/-- The text with every run of blanks made one space, and none at the ends. -/
def flattened (t : Text) : Text :=
  join " " (words t)

/-- Replaces every run of blanks by one `_`. -/
def underscored : Text → Text
  | [] => []
  | [c] => if c.is isBlank then ['_'] else [c]
  | c :: d :: rest =>
      if c.is isBlank then
        if d.is isBlank then underscored (d :: rest) else '_' :: underscored (d :: rest)
      else c :: underscored (d :: rest)

theorem isBlank_of_isWhitespace {c : Char} (h : c.isWhitespace = true) : isBlank c = true := by
  have hc : c = ' ' ∨ c = '\t' ∨ c = '\r' ∨ c = '\n' := by
    simpa [Char.isWhitespace, or_assoc] using h
  rcases hc with rfl | rfl | rfl | rfl <;> decide

@[simp] theorem trim_nil : trim [] = [] := rfl

@[simp] theorem words_nil : words [] = [] := rfl

@[simp] theorem underscored_nil : underscored [] = [] := rfl

end SchemaDesk.Text
