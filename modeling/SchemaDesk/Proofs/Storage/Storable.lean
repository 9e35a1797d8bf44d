import SchemaDesk.Proofs.Sql.ColumnText
import SchemaDesk.Proofs.Sql.Expressible
import SchemaDesk.Storage.Document

/-!
# Projects that can be stored

`Project.IsStorable` says what a project has to satisfy to be written as a document and read back.
Most fields may hold anything.  What counts are the fields that the reader checks or that the SQL
text beside the state needs: names, types, actions, ends of relations and members of enumerations.

A document holds the SQL text of its project, so a project can only be stored if it has one.  What
is asked for the sake of the text is `Project.HasSql`, and what the reader asks for is
`Project.IsLoadable`; a storable project satisfies both.
-/

namespace SchemaDesk

/-! ## What a document can hold -/

/-- A column with a text for its name, one of the known types, and members that are texts. -/
structure Column.IsStorable (c : Column) : Prop where
  name : ∃ s, c.name = .str s
  type : ∃ type : DataType, c.type = .str type.name
  members : c.enumValues.IsMembers

/-- A table with a name that is not blank. -/
structure Table.IsStorable (t : Table) : Prop where
  name : ∃ s, t.name = .str s ∧ s.trim ≠ []
  columns : ∀ c ∈ t.columns, c.IsStorable

/-- A relation with a text for its identifier, four ends that are there, and an admissible kind and
actions. -/
structure Relation.IsStorable (r : Relation) : Prop where
  id : ∃ s, r.id = .str s
  ends : ∀ id ∈ r.endIds, id.isTruthy = true
  kind : Choice.relationKind.admits r.type = true
  onDelete : Choice.action.admits r.onDelete = true
  onUpdate : Choice.action.admits r.onUpdate = true

/-- A sound project with an identifier and a name that are not empty, one of the known engines, a
view made of floating-point numbers, and parts that can be stored. -/
structure Project.IsStorable (p : Project) : Prop where
  sound : p.checkIntegrity = .ok ()
  id : ∃ s, p.id = .str s ∧ s ≠ []
  name : ∃ s, p.name = .str s ∧ s ≠ []
  database : Choice.engine.admits p.database = true
  tables : ∀ t ∈ p.tables, t.IsStorable
  relations : ∀ r ∈ p.relations, r.IsStorable
  zoom : ∃ x, p.zoom = .float x
  pan : ∃ x y, p.pan = [.float x, .float y]

/-! ## What a document is read for -/

/-- A column of one of the known types, with members that are texts. -/
structure Column.IsLoadable (c : Column) : Prop where
  type : ∃ type : DataType, c.type = .str type.name
  members : c.enumValues.IsMembers

/-- A table with a name that is not blank. -/
structure Table.IsLoadable (t : Table) : Prop where
  name : ∃ s, t.name = .str s ∧ s.trim ≠ []
  columns : ∀ c ∈ t.columns, c.IsLoadable

/-- A relation with four ends that are there, and an admissible kind and actions. -/
structure Relation.IsLoadable (r : Relation) : Prop where
  ends : ∀ id ∈ r.endIds, id.isTruthy = true
  kind : Choice.relationKind.admits r.type = true
  onDelete : Choice.action.admits r.onDelete = true
  onUpdate : Choice.action.admits r.onUpdate = true

/-- A sound project with an identifier and a name that are not empty, one of the known engines, a
view made of floating-point numbers, and parts that can be read. -/
structure Project.IsLoadable (p : Project) : Prop where
  sound : p.checkIntegrity = .ok ()
  id : ∃ s, p.id = .str s ∧ s ≠ []
  name : ∃ s, p.name = .str s ∧ s ≠ []
  database : Choice.engine.admits p.database = true
  tables : ∀ t ∈ p.tables, t.IsLoadable
  relations : ∀ r ∈ p.relations, r.IsLoadable
  zoom : ∃ x, p.zoom = .float x
  pan : ∃ x y, p.pan = [.float x, .float y]

end SchemaDesk
