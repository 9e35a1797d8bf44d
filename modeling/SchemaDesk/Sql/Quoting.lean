import SchemaDesk.Text.Basic

/-!
# Quoted runs of SQL text

Three characters quote: single quotes around string literals, double quotes and backticks around
names.  Inside a run its own quote is written twice; in a string literal a backslash also makes the
character after it literal.  A run that is never closed reaches to the end of the text.

`Quoting` is the state of a scanner that only has to know whether it stands inside a run.  It needs
no lookahead: a doubled quote closes the run and opens it again at once, which leaves it in the same
state as staying inside.  `takeRun` cuts a whole run off a text, and the functions after it turn
the contents of a run into its value and back.
-/

namespace SchemaDesk.Sql

/-- The characters that open a quoted run. -/
def isQuote (c : CodePoint) : Bool :=
  c = '\'' || c = '"' || c = '`'

/-- Where a scanner stands: outside all quoted runs, inside a run that `closer` ends, or just after
a backslash inside a string literal. -/
inductive Quoting where
  | bare
  | inside (closer : CodePoint)
  | escaped
  deriving DecidableEq, Repr

/-- The state after one more character. -/
def Quoting.next : Quoting → CodePoint → Quoting
  | .bare, c => if isQuote c then .inside c else .bare
  | .escaped, _ => .inside '\''
  | .inside closer, c =>
      if c = '\\' ∧ closer = '\'' then .escaped
      else if c = closer then .bare
      else .inside closer

theorem Quoting.next_of_isQuote {c : CodePoint} (h : isQuote c = true) :
    Quoting.bare.next c = .inside c := by
  rw [Quoting.next, if_pos h]

theorem Quoting.next_of_not_isQuote {c : CodePoint} (h : isQuote c = false) :
    Quoting.bare.next c = .bare := by
  rw [Quoting.next, h, if_neg Bool.false_ne_true]

/-- Whether a backslash makes the next character literal in a run that `closer` ends. -/
def escapes (closer c : CodePoint) : Bool :=
  c = '\\' && closer = '\''

/-- What follows the opening quote of a run, up to and including the quote that closes it. -/
def takeRun (closer : CodePoint) : Text → Text
  | [] => []
  | [c] => [c]
  | c :: d :: rest =>
      if escapes closer c then c :: d :: takeRun closer rest
      else if c = closer then
        if d = closer then c :: d :: takeRun closer rest else [c]
      else c :: takeRun closer (d :: rest)

/-- The contents of a run: all of it but its closing quote.  An unclosed run that happens to end in
its own quote loses that quote too. -/
def runContents (closer : CodePoint) (run : Text) : Text :=
  if run.getLast? = some closer then run.dropLast else run

/-! ## Names in quotes -/

/-- Each quote doubled. -/
def doubled (quote : CodePoint) : Text → Text
  | [] => []
  | c :: rest => if c = quote then quote :: quote :: doubled quote rest else c :: doubled quote rest

/-- Each doubled quote made single again. -/
def undoubled (quote : CodePoint) : Text → Text
  | [] => []
  | [c] => [c]
  | c :: d :: rest =>
      if c = quote ∧ d = quote then quote :: undoubled quote rest
      else c :: undoubled quote (d :: rest)

/-! ## String literals -/

/-- Each backslash and each single quote doubled. -/
def escapedLiteral : Text → Text
  | [] => []
  | c :: rest =>
      if c = '\\' ∨ c = '\'' then c :: c :: escapedLiteral rest else c :: escapedLiteral rest

/-- The value of a literal's contents: a character after a backslash stands for itself, and so does
a doubled single quote. -/
def literalValue : Text → Text
  | [] => []
  | [c] => [c]
  | c :: d :: rest =>
      if c = '\\' then d :: literalValue rest
      else if c = '\'' ∧ d = '\'' then '\'' :: literalValue rest
      else c :: literalValue (d :: rest)

/-- A text as a string literal. -/
def quoteLiteral (value : Text) : Text :=
  "'" ++ escapedLiteral value ++ "'"

@[simp] theorem takeRun_nil (closer : CodePoint) : takeRun closer [] = [] := rfl

@[simp] theorem doubled_nil (quote : CodePoint) : doubled quote [] = [] := rfl

@[simp] theorem undoubled_nil (quote : CodePoint) : undoubled quote [] = [] := rfl

/-- Undoing the doubling of quotes gives the name back. -/
theorem undoubled_doubled (quote : CodePoint) (t : Text) :
    undoubled quote (doubled quote t) = t := by
  induction t with
  | nil => rfl
  | cons c rest ih =>
      by_cases h : c = quote
      · simp [doubled, undoubled, h, ih]
      · cases hd : doubled quote rest with
        | nil => cases rest with
          | nil => simp [doubled, undoubled, h]
          | cons e later => by_cases he : e = quote <;> simp [doubled, he] at hd
        | cons d later =>
            rw [doubled, if_neg h, hd, undoubled, if_neg (fun both => h both.1), ← hd, ih]

/-- Reading an escaped text gives the text back. -/
theorem literalValue_escapedLiteral (t : Text) : literalValue (escapedLiteral t) = t := by
  induction t with
  | nil => rfl
  | cons c rest ih =>
      by_cases hb : c = '\\'
      · simp [escapedLiteral, literalValue, hb, ih]
      · by_cases hq : c = '\''
        · simp [escapedLiteral, literalValue, hq, ih]
        · cases hd : escapedLiteral rest with
          | nil => cases rest with
            | nil => simp [escapedLiteral, literalValue, hb, hq]
            | cons e later => by_cases he : e = '\\' ∨ e = '\'' <;> simp [escapedLiteral, he] at hd
          | cons d later =>
              rw [escapedLiteral, if_neg (by simp [hb, hq]), hd, literalValue, if_neg hb,
                if_neg (fun both => hq both.1), ← hd, ih]

end SchemaDesk.Sql
