import SchemaDesk.Sql.Quoting
import SchemaDesk.Text.Alphanumeric
import SchemaDesk.Text.Blank

/-!
# Tokens of SQL text

A text is cut into words, quoted names, string literals, parenthesised groups and single marks;
blanks between them are dropped.  Every token knows where it stood, in code points from the start of
the text.  A group is one token, whose body is kept unread: it is cut into items and tokens only
where the grammar asks for it.  Square brackets quote names here, and only here: they mean nothing
to the scanners that skip over quoted runs.
-/

namespace SchemaDesk.Sql

/-- What a token is. -/
inductive Lexeme where
  | word (text : Text)
  | quoted (name : Text)
  | literal (value : Text)
  | group (body : Text)
  | mark (symbol : CodePoint)
  deriving DecidableEq, Repr

/-- A lexeme and the half-open span of the text it was read from. -/
structure Token where
  lexeme : Lexeme
  start : Nat
  stop : Nat
  deriving DecidableEq, Repr

/-- The characters of bare words. -/
def isWordChar (c : CodePoint) : Bool :=
  c.is Text.isAlphanumeric || c = '_' || c = '$'

/-- The character that closes a run opened by `c`, if `c` opens one. -/
def closer? (c : CodePoint) : Option CodePoint :=
  if isQuote c then some c else if c = '[' then some ']' else none

theorem closer?_of_isQuote {c : CodePoint} (h : isQuote c = true) : closer? c = some c := by
  rw [closer?, if_pos h]

theorem closer?_eq_none {c : CodePoint} (hquote : isQuote c = false) (hbracket : c ≠ '[') :
    closer? c = none := by
  rw [closer?, hquote, if_neg Bool.false_ne_true, if_neg hbracket]

/-- The body of a group, whose opening parenthesis has been read, up to the parenthesis that closes
it; `none` if nothing does.  The number counts the groups open inside it. -/
def takeGroup : Nat → Quoting → Text → Option Text
  | _, _, [] => none
  | depth, quoting, c :: rest =>
      if quoting = .bare ∧ c = ')' then
        match depth with
        | 0 => some []
        | inner + 1 => (takeGroup inner .bare rest).map (c :: ·)
      else
        let depth := if quoting = .bare ∧ c = '(' then depth + 1 else depth
        (takeGroup depth (quoting.next c) rest).map (c :: ·)

/-- The lexeme of a quoted run that `opener` opened, from what follows the opener. -/
def quotedLexeme (opener closer : CodePoint) (run : Text) : Lexeme :=
  let contents := runContents closer run
  if opener = '\'' then .literal (literalValue contents)
  else .quoted (undoubled closer contents)

/-- The lexeme that begins with `c`, which is not blank, when `rest` follows, and how many
code points of `rest` belong to it. -/
def leading (c : CodePoint) (rest : Text) : Lexeme × Nat :=
  if isWordChar c then
    let more := rest.takeWhile isWordChar
    (.word (c :: more), more.length)
  else
    match closer? c with
    | some closer =>
        let run := takeRun closer rest
        (quotedLexeme c closer run, run.length)
    | none =>
        if c = '(' then
          match takeGroup 0 .bare rest with
          | some body => (.group body, body.length + 1)
          | none => (.group rest, rest.length)
        else (.mark c, 0)

/-- The tokens of a text that starts at `position`.  The second number counts code points
that belong to the token just read and are passed over. -/
def tokensFrom : Nat → Nat → Text → List Token
  | _, _, [] => []
  | position, skip + 1, _ :: rest => tokensFrom (position + 1) skip rest
  | position, 0, c :: rest =>
      if c.is Text.isBlank then tokensFrom (position + 1) 0 rest
      else
        let (lexeme, width) := leading c rest
        ⟨lexeme, position, position + 1 + width⟩ :: tokensFrom (position + 1) width rest

/-- The tokens of a text. -/
def tokenize (text : Text) : List Token :=
  tokensFrom 0 0 text

/-- The part of a text between two positions. -/
def slice (text : Text) (start stop : Nat) : Text :=
  (text.drop start).take (stop - start)

theorem slice_middle (before middle after : Text) :
    slice (before ++ (middle ++ after)) before.length (before.length + middle.length) = middle := by
  rw [slice, List.drop_left, Nat.add_sub_cancel_left, List.take_left]

/-- Code points passed over leave no trace but in the positions. -/
theorem tokensFrom_skip (position skip : Nat) (t : Text) :
    tokensFrom position skip t = tokensFrom (position + skip) 0 (t.drop skip) := by
  induction t generalizing position skip with
  | nil => cases skip <;> simp [tokensFrom]
  | cons c rest ih =>
      cases skip with
      | zero => simp
      | succ skip => simp [tokensFrom, ih, Nat.add_assoc, Nat.add_comm 1]

end SchemaDesk.Sql
