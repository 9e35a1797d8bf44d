import SchemaDesk.Proofs.Schema.Sound
import SchemaDesk.Sql.Ddl

/-!
# When a project can be written

The text of a project is made of the statements of its tables and of its relations.  `ddl_eq_ok`
takes the writing apart once: it succeeds when every statement can be written, and then the
statements stand below a head of two comments.
-/

namespace SchemaDesk.Sql

/-- The head of a text: the name of the project and a time, each in a comment. -/
def headLines (name stamp : Text) : List Text :=
  ["-- Database: " ++ name, "-- Generated at: " ++ stamp, []]

/-- The lines of a text below its head. -/
def bodyLines (creates alters : List Text) : List Text :=
  let relationships : List Text :=
    if alters.isEmpty then [] else "-- Relationships" :: (alters ++ [[]])
  creates.flatMap ([·, []]) ++ relationships

/-- A project is written when all its statements are and no identifier of a table is a list or an
object. -/
theorem ddl_eq_ok {p : Project} {stamp text : Text} :
    ddl p stamp = .ok text ↔ ∃ creates alters,
      (p.tables.mapM fun t => createTable t p.database) = .ok creates ∧
        (∀ t ∈ p.tables, t.id.isKey = true) ∧ p.relations.mapM (alterTable? p) = .ok alters ∧
        Text.join "\n" (headLines p.name.text stamp ++ bodyLines creates (alters.filterMap id)) =
          text := by
  rw [ddl, Except.bind_eq_ok]
  refine exists_congr fun creates => ?_
  rw [← List.all_eq_true]
  by_cases hkeys : p.tables.all (·.id.isKey) = true
  · rw [if_pos hkeys, Except.bind_eq_ok]
    simp only [hkeys, true_and, exists_and_left, Except.ok.injEq, headLines, bodyLines,
      List.append_assoc]
  · rw [if_neg hkeys]
    simp [hkeys]

end SchemaDesk.Sql
