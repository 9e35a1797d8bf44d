import SchemaDesk.Problem.Basic
import SchemaDesk.Schema.Records

/-!
# Integrity of a project

A project is sound when no two of its tables and relations have the same identifier, no two of its
columns have the same identifier, and both ends of every relation are columns of tables that exist.
`Project.checkIntegrity` reports the first fault, in that order; an identifier that cannot serve as
a key is a fault of its own kind.
-/

namespace SchemaDesk

namespace Relation

/-- The table at an end of a relation. -/
def tableId (r : Relation) : Side → Value
  | .source => r.sourceTableId
  | .target => r.targetTableId

/-- The column at an end of a relation. -/
def columnId (r : Relation) : Side → Value
  | .source => r.sourceColumnId
  | .target => r.targetColumnId

/-- The identifiers of the column that a relation starts at. -/
def sourceIds (r : Relation) : List Value :=
  [r.sourceTableId, r.sourceColumnId]

/-- The identifiers of the columns that a relation joins. -/
def endIds (r : Relation) : List Value :=
  [r.sourceTableId, r.sourceColumnId, r.targetTableId, r.targetColumnId]

end Relation

/-- Fails unless all of some values can serve as keys. -/
def requireKeys (vs : List Value) : Except Failure Unit :=
  if vs.all Value.isKey then .ok () else .error .wrongType

/-- Fails with a reported problem unless a condition holds. -/
def require (condition : Bool) (p : Problem) : Except Failure Unit :=
  if condition then .ok () else .error (.problem p)

namespace Table

/-- The identifiers of a table's columns. -/
def columnIds (t : Table) : List Value :=
  t.columns.map Column.id

end Table

/-- The identifiers of all columns, each with that of its table. -/
def columnKeys (tables : List Table) : List Value :=
  tables.flatMap fun t => t.columnIds.flatMap fun id => [t.id, id]

namespace Project

/-- The identifiers of the tables and relations. -/
def entityIds (p : Project) : List Value :=
  p.tables.map Table.id ++ p.relations.map Relation.id

/-- The identifiers of the columns of all tables. -/
def columnIds (p : Project) : List Value :=
  p.tables.flatMap Table.columnIds

/-- Checks one end of a relation. -/
def checkEnd (p : Project) (r : Relation) (side : Side) : Except Failure Unit := do
  requireKeys [r.tableId side]
  match p.tables.find? (·.id.same (r.tableId side)) with
  | none => .error (.problem (.endTableMissing r.id side (r.tableId side)))
  | some table => do
      requireKeys [r.columnId side]
      require ((r.columnId side).isAmong table.columnIds)
        (.endColumnMissing r.id side (r.columnId side))

/-- Checks both ends of a relation. -/
def checkRelation (p : Project) (r : Relation) : Except Failure Unit := do
  p.checkEnd r .source
  p.checkEnd r .target

/-- Reports the first fault of a project that is not sound. -/
def checkIntegrity (p : Project) : Except Failure Unit := do
  requireKeys (p.tables.map Table.id ++ p.columnIds ++ p.relations.map Relation.id)
  require (Value.allDistinct p.entityIds) .duplicateEntityId
  require (Value.allDistinct p.columnIds) .duplicateColumnId
  p.relations.forM p.checkRelation

end Project

end SchemaDesk
