import SchemaDesk.Sql.Quoting

/-!
# Comments in SQL text

A line comment runs from two dashes to the end of its line, a block comment from `/*` to the next
`*/`; either may reach to the end of the text instead.  Comment openers inside quoted runs are
ordinary text.  Removing comments leaves the end of the line where a line comment stood and one
space where a block comment stood, so no two words grow together.
-/

namespace SchemaDesk.Sql

/-- Where the removal of comments stands. -/
inductive CommentState where
  | code (quoting : Quoting)
  | line
  | block
  deriving DecidableEq, Repr

/-- The text without its comments, from a given state on. -/
def stripFrom : CommentState → Text → Text
  | _, [] => []
  | .line, c :: rest => if c = '\n' then c :: stripFrom (.code .bare) rest else stripFrom .line rest
  | .block, [_] => []
  | .block, c :: d :: rest =>
      if c = '*' ∧ d = '/' then stripFrom (.code .bare) rest else stripFrom .block (d :: rest)
  | .code _, [c] => [c]
  | .code quoting, c :: d :: rest =>
      if quoting = .bare ∧ c = '-' ∧ d = '-' then stripFrom .line rest
      else if quoting = .bare ∧ c = '/' ∧ d = '*' then ' ' :: stripFrom .block rest
      else c :: stripFrom (.code (quoting.next c)) (d :: rest)

/-- The text without its comments. -/
def stripComments (sql : Text) : Text :=
  stripFrom (.code .bare) sql

end SchemaDesk.Sql
