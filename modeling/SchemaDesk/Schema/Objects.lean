import SchemaDesk.Problem.Basic
import SchemaDesk.Schema.Records

/-!
# Records from objects

The way back from `toValue`: a record given as an object with its fields under their stored names.
No value is checked, but the entries have to be those of the record.  A field that has no usual
value must be there, others may be left out, and there is no entry that is not a field.  Snapshots
and projects hold records and are no records of that kind: all their fields may be left out, and
what else stands beside them does not count.
-/

namespace SchemaDesk

/-- The entries of an object. -/
def Value.entries : Value → Except Failure Patch
  | .object entries => .ok entries
  | _ => .error .notObject

/-- What is read from each part of an entry; an entry that is not there has no parts. -/
def Value.readEach {α : Type} (read : Value → Except Failure α) (key : Text) (patch : Patch) :
    Except Failure (List α) :=
  match Value.get? key patch with
  | none => .ok []
  | some v =>
      match v.elements? with
      | some parts => parts.mapM read
      | none => .error .wrongType

/-- The entries of an object that has nothing but fields of the given names, and all the required
ones. -/
def Field.entriesIn (names required : List Text) : Value → Except Failure Patch
  | .object entries =>
      if required.all (fun name => (Value.get? name entries).isSome) &&
          entries.all (fun entry => names.contains entry.1) then .ok entries
      else .error .wrongType
  | _ => .error .wrongType

/-- The column that an object describes. -/
def Column.ofValue (v : Value) : Except Failure Column := do
  let patch ← Field.entriesIn (Field.names fields) ["id", "name"] v
  .ok (ofPatch patch)

/-- The table that an object describes. -/
def Table.ofValue (v : Value) : Except Failure Table := do
  let patch ← Field.entriesIn ("columns" :: Field.names fields) ["id", "name"] v
  let columns ← Value.readEach Column.ofValue "columns" patch
  .ok (ofPatch columns patch)

/-- The relation that an object describes. -/
def Relation.ofValue (v : Value) : Except Failure Relation := do
  let patch ← Field.entriesIn (Field.names fields)
    ["id", "source_table_id", "source_column_id", "target_table_id", "target_column_id"] v
  .ok (ofPatch patch)

/-- The note that an object describes. -/
def Note.ofValue (v : Value) : Except Failure Note := do
  let patch ← Field.entriesIn (Field.names fields) ["id"] v
  .ok (ofPatch patch)

/-- The label that an object describes. -/
def Label.ofValue (v : Value) : Except Failure Label := do
  let patch ← Field.entriesIn (Field.names fields) ["id"] v
  .ok (ofPatch patch)

/-- The entities in the entries of an object. -/
def Snapshot.ofEntries (patch : Patch) : Except Failure Snapshot := do
  let tables ← Value.readEach Table.ofValue "tables" patch
  let relations ← Value.readEach Relation.ofValue "relations" patch
  let notes ← Value.readEach Note.ofValue "notes" patch
  let labels ← Value.readEach Label.ofValue "texts" patch
  .ok ⟨tables, relations, notes, labels⟩

/-- The snapshot that an object describes. -/
def Snapshot.ofValue (v : Value) : Except Failure Snapshot := do
  let patch ← v.entries
  ofEntries patch

/-- The fields of a project other than its entities and its pan. -/
def Project.fields : List (Field Project) :=
  [⟨"id", id, fun v p => { p with id := v }⟩,
    ⟨"name", name, fun v p => { p with name := v }⟩,
    ⟨"database", database, fun v p => { p with database := v }⟩,
    ⟨"zoom", zoom, fun v p => { p with zoom := v }⟩]

/-- The project that an object describes, with an identifier for one that has none. -/
def Project.ofValue (id : Text) (v : Value) : Except Failure Project := do
  let patch ← v.entries
  let snapshot ← Snapshot.ofEntries patch
  let p : Project := Field.patched fields patch { id := id }
  let p := p.withSnapshot snapshot
  match Value.get? "pan" patch with
  | none => .ok p
  | some v =>
      match v.elements? with
      | some pan => .ok { p with pan }
      | none => .error .wrongType

end SchemaDesk
