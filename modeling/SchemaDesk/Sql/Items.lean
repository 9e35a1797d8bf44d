import SchemaDesk.Sql.Quoting
import SchemaDesk.Text.Blank

/-!
# Comma-separated items

The body of a table, an argument list and a list of names are all read as items between commas.  A
comma inside parentheses or inside a quoted run separates nothing.  Items are trimmed, and empty
ones are left out.
-/

namespace SchemaDesk.Sql

/-- The depth of parentheses after one more character outside quotes.  A closing parenthesis without
an open one changes nothing. -/
def depthAfter (depth : Nat) (c : CodePoint) : Nat :=
  if c = '(' then depth + 1 else if c = ')' then depth - 1 else depth

/-- The pieces between separating commas: the one that is open at this point, and the later ones. -/
def piecesFrom : Nat → Quoting → Text → Text × List Text
  | _, _, [] => ([], [])
  | depth, quoting, c :: rest =>
      if quoting = .bare ∧ c = ',' ∧ depth = 0 then
        let (current, later) := piecesFrom 0 .bare rest
        ([], current :: later)
      else
        let depth := if quoting = .bare then depthAfter depth c else depth
        let (current, later) := piecesFrom depth (quoting.next c) rest
        (c :: current, later)

/-- The items of a text. -/
def splitItems (body : Text) : List Text :=
  let (first, later) := piecesFrom 0 .bare body
  ((first :: later).map Text.trim).filter (· ≠ [])

@[simp] theorem splitItems_nil : splitItems [] = [] := rfl

end SchemaDesk.Sql
