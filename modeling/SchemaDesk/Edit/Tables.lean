import SchemaDesk.Edit.Basic
import SchemaDesk.Edit.Flags

/-!
# Edits of tables and columns

A new table comes with one column, its primary key, and a table never loses its last column.
Deleting a table or a column deletes the relations that start or end there.
-/

namespace SchemaDesk.Edit

/-- The table of an identifier, which has to exist. -/
def requireTable (p : Project) (id : Value) (place : Place) : Except Failure Table :=
  match p.table? id with
  | some table => .ok table
  | none => .error (.problem (.tableNotFound place id))

/-- The column of an identifier, which has to exist in a table. -/
def requireColumn (table : Table) (id : Value) (place : Place) : Except Failure Column :=
  match table.column? id with
  | some column => .ok column
  | none => .error (.problem (.columnNotFound place id table.name))

/-- Fails unless relations can be told apart by the columns at which they start, and so can the
columns of the tables that are left with fewer of them. -/
def checkRelease (removed remaining : List Relation) (tables : List Table) :
    Except Failure Unit := do
  requireKeys ((remaining ++ removed).flatMap Relation.sourceIds)
  let released := removed.filter fun r =>
    !remaining.any (·.startsAt r.sourceTableId r.sourceColumnId)
  let affected := tables.filter fun t => released.any (·.sourceTableId.equals t.id)
  requireKeys (affected.flatMap Table.columnIds)

/-! ## Tables -/

/-- The column that every new table has. -/
def seedColumn (id : Text) : Column :=
  { id := id, name := "id", type := DataType.int.name, isPrimaryKey := true, isNullable := false,
    isUnique := true }

/-- Adds a table. -/
def addTable (v : Value) (patch : Patch) : Edit Table := fun p => do
  ofExcept (refuseArguments ["name"] patch)
  let clean ← ofExcept (name v .addTableName)
  ofExcept (checkFields patch (fieldsWithout Table.fields ["id", "name"]) .addTable)
  let columnId ← mint
  let id ← mint
  let table := Field.patched Table.fields patch
    { id := id, name := clean, columns := [seedColumn columnId] }
  pure (table, some { p with tables := p.tables ++ [table] })

/-- Changes fields of a table. -/
def updateTable (id : Value) (patch : Patch) : Edit Table := fun p => do
  let table ← ofExcept (requireTable p id .editTable)
  ofExcept (checkFields patch (fieldsWithout Table.fields ["id"]) .editTable)
  let patch ← ofExcept (withName patch .editTableName)
  let updated := Field.patched Table.fields patch table
  pure (updated, some { p with tables := replaceTable p.tables updated })

/-- Moves a table on the canvas. -/
def moveTable (id x y : Value) : Edit Table :=
  updateTable id [("x", x), ("y", y)]

/-- Deletes a table and the relations that touch it. -/
def deleteTable (id : Value) : Edit Unit := fun p => do
  let _ ← ofExcept (requireTable p id .deleteTable)
  let removed := p.relations.filter (·.touches id)
  let remaining := p.relations.filter (!·.touches id)
  let tables := p.tables.filter (!·.id.equals id)
  ofExcept (checkRelease removed remaining tables)
  pure ((), some
    { p with tables := Flags.release removed remaining tables, relations := remaining })

/-! ## Columns -/

/-- Checks a patch of a column, and trims the name in it. -/
def checkColumnPatch (patch : Patch) (place : Place) : Except Failure Patch := do
  checkFields patch (fieldsWithout Column.fields ["id"]) place
  let patch ← withName patch place
  match Value.get? "type" patch with
  | some type => checkChoice type .columnType place
  | none => .ok ()
  .ok patch

/-- Adds a column at the end of a table. -/
def addColumn (tableId name type : Value) (patch : Patch) : Edit Column := fun p => do
  ofExcept (refuseArguments ["table_id", "name", "type"] patch)
  let table ← ofExcept (requireTable p tableId .addColumn)
  let patch ← ofExcept
    (checkColumnPatch (("name", name) :: ("type", type) :: patch) .addColumn)
  let id ← mint
  let column := Field.patched Column.fields patch { id := id, name := .null }
  let updated := { table with columns := table.columns ++ [column] }
  pure (column, some { p with tables := replaceTable p.tables updated })

/-- Changes fields of a column. -/
def updateColumn (tableId columnId : Value) (patch : Patch) : Edit Column := fun p => do
  let table ← ofExcept (requireTable p tableId .editColumn)
  let column ← ofExcept (requireColumn table columnId .editColumn)
  let patch ← ofExcept (checkColumnPatch patch .editColumn)
  let updated := Field.patched Column.fields patch column
  let table := { table with columns := changeColumn table.columns columnId fun _ => updated }
  pure (updated, some { p with tables := replaceTable p.tables table })

/-- Deletes a column, unless it is the only one of its table, and the relations that start or end
at it. -/
def deleteColumn (tableId columnId : Value) : Edit Unit := fun p => do
  let table ← ofExcept (requireTable p tableId .deleteColumn)
  let _ ← ofExcept (requireColumn table columnId .deleteColumn)
  ofExcept (require (table.columns.length ≠ 1) (.onlyColumn table.name))
  let atColumn (r : Relation) : Bool := r.startsAt tableId columnId || r.endsAt tableId columnId
  let removed := p.relations.filter atColumn
  let remaining := p.relations.filter (!atColumn ·)
  let updated := { table with columns := table.columns.filter (!·.id.equals columnId) }
  let tables := replaceTable p.tables updated
  ofExcept (checkRelease removed remaining tables)
  pure ((), some
    { p with tables := Flags.release removed remaining tables, relations := remaining })

end SchemaDesk.Edit
