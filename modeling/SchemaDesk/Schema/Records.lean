import SchemaDesk.Schema.Choices

/-!
# The records of a project

A project holds tables with their columns, relations between columns, notes and free text labels,
and how the canvas is viewed.  Fields are loosely typed values, because edits and files may put
anything into most of them.

Every record type has a list of `Field`s, which gives the stored name of each field and how to read
and replace it.  Patches, files and answers all go through these lists.
-/

namespace SchemaDesk

/-- A field of records of type `ρ`: its stored name, and how it is read and replaced. -/
structure Field (ρ : Type) where
  name : Text
  get : ρ → Value
  set : Value → ρ → ρ

/-- Named values, to be put into the fields of those names. -/
abbrev Patch := List (Text × Value)

namespace Field

variable {ρ : Type}

/-- The names of fields. -/
def names (fields : List (Field ρ)) : List Text :=
  fields.map Field.name

/-- The fields of a record, by name. -/
def entries (fields : List (Field ρ)) (r : ρ) : List (Text × Value) :=
  fields.map fun f => (f.name, f.get r)

/-- The record with one field replaced; a name that no field has changes nothing. -/
def put (fields : List (Field ρ)) (r : ρ) (entry : Text × Value) : ρ :=
  match fields.find? (·.name = entry.1) with
  | some f => f.set entry.2 r
  | none => r

/-- The record with the fields named in a patch replaced. -/
def patched (fields : List (Field ρ)) (patch : Patch) (r : ρ) : ρ :=
  patch.foldl (put fields) r

end Field

/-- A column of a table.  The two `references` fields repeat the target of a relation that starts at
the column; the relation itself is what counts. -/
structure Column where
  id : Value
  name : Value
  type : Value := DataType.varchar.name
  size : Value := .null
  precision : Value := .null
  scale : Value := .null
  isPrimaryKey : Value := false
  isForeignKey : Value := false
  isNullable : Value := true
  isUnique : Value := false
  isAutoIncrement : Value := false
  isUnsigned : Value := false
  defaultValue : Value := .null
  comment : Value := .null
  enumValues : Value := .null
  referencesTableId : Value := .null
  referencesColumnId : Value := .null
  deriving DecidableEq, Repr

/-- The fields of a column. -/
def Column.fields : List (Field Column) :=
  [⟨"id", id, fun v c => { c with id := v }⟩,
    ⟨"name", name, fun v c => { c with name := v }⟩,
    ⟨"type", type, fun v c => { c with type := v }⟩,
    ⟨"size", size, fun v c => { c with size := v }⟩,
    ⟨"precision", precision, fun v c => { c with precision := v }⟩,
    ⟨"scale", scale, fun v c => { c with scale := v }⟩,
    ⟨"is_primary_key", isPrimaryKey, fun v c => { c with isPrimaryKey := v }⟩,
    ⟨"is_foreign_key", isForeignKey, fun v c => { c with isForeignKey := v }⟩,
    ⟨"is_nullable", isNullable, fun v c => { c with isNullable := v }⟩,
    ⟨"is_unique", isUnique, fun v c => { c with isUnique := v }⟩,
    ⟨"is_auto_increment", isAutoIncrement, fun v c => { c with isAutoIncrement := v }⟩,
    ⟨"is_unsigned", isUnsigned, fun v c => { c with isUnsigned := v }⟩,
    ⟨"default_value", defaultValue, fun v c => { c with defaultValue := v }⟩,
    ⟨"comment", comment, fun v c => { c with comment := v }⟩,
    ⟨"enum_values", enumValues, fun v c => { c with enumValues := v }⟩,
    ⟨"references_table_id", referencesTableId, fun v c => { c with referencesTableId := v }⟩,
    ⟨"references_column_id", referencesColumnId, fun v c => { c with referencesColumnId := v }⟩]

/-- A table with its columns and its place on the canvas. -/
structure Table where
  id : Value
  name : Value
  columns : List Column := []
  x : Value := .int 0
  y : Value := .int 0
  color : Value := "#f8fafc"
  comment : Value := .null
  engine : Value := .null
  charset : Value := .null
  collation : Value := .null
  deriving DecidableEq, Repr

/-- The fields of a table other than its columns. -/
def Table.fields : List (Field Table) :=
  [⟨"id", id, fun v t => { t with id := v }⟩,
    ⟨"name", name, fun v t => { t with name := v }⟩,
    ⟨"x", x, fun v t => { t with x := v }⟩,
    ⟨"y", y, fun v t => { t with y := v }⟩,
    ⟨"color", color, fun v t => { t with color := v }⟩,
    ⟨"comment", comment, fun v t => { t with comment := v }⟩,
    ⟨"engine", engine, fun v t => { t with engine := v }⟩,
    ⟨"charset", charset, fun v t => { t with charset := v }⟩,
    ⟨"collation", collation, fun v t => { t with collation := v }⟩]

/-- A foreign key: it starts at the source column and refers to the target column. -/
structure Relation where
  id : Value
  sourceTableId : Value
  sourceColumnId : Value
  targetTableId : Value
  targetColumnId : Value
  type : Value := RelationKind.oneToMany.name
  onDelete : Value := ReferentialAction.cascade.name
  onUpdate : Value := ReferentialAction.cascade.name
  name : Value := .null
  label : Value := .null
  color : Value := .null
  sourceSide : Value := .null
  targetSide : Value := .null
  deriving DecidableEq, Repr

/-- The fields of a relation. -/
def Relation.fields : List (Field Relation) :=
  [⟨"id", id, fun v r => { r with id := v }⟩,
    ⟨"source_table_id", sourceTableId, fun v r => { r with sourceTableId := v }⟩,
    ⟨"source_column_id", sourceColumnId, fun v r => { r with sourceColumnId := v }⟩,
    ⟨"target_table_id", targetTableId, fun v r => { r with targetTableId := v }⟩,
    ⟨"target_column_id", targetColumnId, fun v r => { r with targetColumnId := v }⟩,
    ⟨"type", type, fun v r => { r with type := v }⟩,
    ⟨"on_delete", onDelete, fun v r => { r with onDelete := v }⟩,
    ⟨"on_update", onUpdate, fun v r => { r with onUpdate := v }⟩,
    ⟨"name", name, fun v r => { r with name := v }⟩,
    ⟨"label", label, fun v r => { r with label := v }⟩,
    ⟨"color", color, fun v r => { r with color := v }⟩,
    ⟨"source_side", sourceSide, fun v r => { r with sourceSide := v }⟩,
    ⟨"target_side", targetSide, fun v r => { r with targetSide := v }⟩]

/-- The names of the fields with the ends of a relation. -/
def Relation.endFields : List Text :=
  ["source_table_id", "source_column_id", "target_table_id", "target_column_id"]

/-- A note pinned to the canvas. -/
structure Note where
  id : Value
  x : Value := .int 0
  y : Value := .int 0
  content : Value := ""
  color : Value := "#fef08a"
  width : Value := .null
  height : Value := .null
  deriving DecidableEq, Repr

/-- The fields of a note. -/
def Note.fields : List (Field Note) :=
  [⟨"id", id, fun v n => { n with id := v }⟩,
    ⟨"x", x, fun v n => { n with x := v }⟩,
    ⟨"y", y, fun v n => { n with y := v }⟩,
    ⟨"content", content, fun v n => { n with content := v }⟩,
    ⟨"color", color, fun v n => { n with color := v }⟩,
    ⟨"width", width, fun v n => { n with width := v }⟩,
    ⟨"height", height, fun v n => { n with height := v }⟩]

/-- A line of text on the canvas. -/
structure Label where
  id : Value
  x : Value := .int 0
  y : Value := .int 0
  content : Value := ""
  fontSize : Value := .int 16
  fontWeight : Value := "normal"
  color : Value := .null
  deriving DecidableEq, Repr

/-- The fields of a label. -/
def Label.fields : List (Field Label) :=
  [⟨"id", id, fun v l => { l with id := v }⟩,
    ⟨"x", x, fun v l => { l with x := v }⟩,
    ⟨"y", y, fun v l => { l with y := v }⟩,
    ⟨"content", content, fun v l => { l with content := v }⟩,
    ⟨"font_size", fontSize, fun v l => { l with fontSize := v }⟩,
    ⟨"font_weight", fontWeight, fun v l => { l with fontWeight := v }⟩,
    ⟨"color", color, fun v l => { l with color := v }⟩]

/-- A project: the entities on its canvas, its name and engine, and how it is viewed.  Its pan is
the point of the canvas shown at the origin of the window, by its two coordinates. -/
structure Project where
  id : Value
  name : Value := "New Database"
  database : Value := Engine.mysql.name
  tables : List Table := []
  relations : List Relation := []
  notes : List Note := []
  labels : List Label := []
  zoom : Value := .float .one
  pan : List Value := [.float (.zero false), .float (.zero false)]
  deriving DecidableEq, Repr

/-- The part of a project that can be undone: all entities, but neither its identity nor how it is
viewed. -/
structure Snapshot where
  tables : List Table := []
  relations : List Relation := []
  notes : List Note := []
  labels : List Label := []
  deriving DecidableEq, Repr

namespace Column

/-- A column as an object. -/
def toValue (c : Column) : Value :=
  .object (Field.entries fields c)

/-- A column with the given fields and the usual values in the others. -/
def ofPatch (patch : Patch) : Column :=
  Field.patched fields patch { id := .null, name := .null }

end Column

namespace Table

/-- A table as an object; the columns come after its name. -/
def toValue (t : Table) : Value :=
  let entries := Field.entries fields t
  let columns : Text × Value := ("columns", .list (t.columns.map Column.toValue))
  .object (entries.take 2 ++ columns :: entries.drop 2)

/-- A table with the given columns and fields and the usual values in the others. -/
def ofPatch (columns : List Column) (patch : Patch) : Table :=
  Field.patched fields patch { id := .null, name := .null, columns }

/-- The first column with a given id. -/
def column? (t : Table) (id : Value) : Option Column :=
  t.columns.find? (·.id.equals id)

/-- The first column marked as primary key. -/
def primaryKey? (t : Table) : Option Column :=
  t.columns.find? (·.isPrimaryKey.isTruthy)

end Table

namespace Relation

/-- A relation as an object. -/
def toValue (r : Relation) : Value :=
  .object (Field.entries fields r)

/-- A relation with the given fields and the usual values in the others. -/
def ofPatch (patch : Patch) : Relation :=
  Field.patched fields patch
    { id := .null, sourceTableId := .null, sourceColumnId := .null, targetTableId := .null,
      targetColumnId := .null }

end Relation

namespace Note

/-- A note as an object. -/
def toValue (n : Note) : Value :=
  .object (Field.entries fields n)

/-- A note with the given fields and the usual values in the others. -/
def ofPatch (patch : Patch) : Note :=
  Field.patched fields patch { id := .null }

end Note

namespace Label

/-- A label as an object. -/
def toValue (l : Label) : Value :=
  .object (Field.entries fields l)

/-- A label with the given fields and the usual values in the others. -/
def ofPatch (patch : Patch) : Label :=
  Field.patched fields patch { id := .null }

end Label

namespace Snapshot

/-- A snapshot as an object. -/
def toValue (s : Snapshot) : Value :=
  .object
    [("tables", .list (s.tables.map Table.toValue)),
      ("relations", .list (s.relations.map Relation.toValue)),
      ("notes", .list (s.notes.map Note.toValue)),
      ("texts", .list (s.labels.map Label.toValue))]

/-- Whether two snapshots show the same canvas: all their fields are the same. -/
def same (a b : Snapshot) : Bool :=
  a.toValue.same b.toValue

@[simp] theorem same_self (s : Snapshot) : s.same s = true :=
  Value.same_self _

end Snapshot

namespace Project

/-- The undoable part of a project. -/
def snapshot (p : Project) : Snapshot :=
  ⟨p.tables, p.relations, p.notes, p.labels⟩

/-- The project with the entities of a snapshot. -/
def withSnapshot (p : Project) (s : Snapshot) : Project :=
  { p with tables := s.tables, relations := s.relations, notes := s.notes, labels := s.labels }

/-- The first table with a given id. -/
def table? (p : Project) (id : Value) : Option Table :=
  p.tables.find? (·.id.equals id)

/-- A project as an object, given how its pan is shown. -/
def toValueWith (pan : Value) (p : Project) : Value :=
  .object
    [("id", p.id), ("name", p.name), ("database", p.database),
      ("tables", .list (p.tables.map Table.toValue)),
      ("relations", .list (p.relations.map Relation.toValue)),
      ("notes", .list (p.notes.map Note.toValue)),
      ("texts", .list (p.labels.map Label.toValue)),
      ("zoom", p.zoom), ("pan", pan)]

/-- A project as an object, its pan as a list. -/
def toValue (p : Project) : Value :=
  p.toValueWith (.list p.pan)

@[simp] theorem snapshot_withSnapshot (p : Project) (s : Snapshot) :
    (p.withSnapshot s).snapshot = s := rfl

end Project

end SchemaDesk
