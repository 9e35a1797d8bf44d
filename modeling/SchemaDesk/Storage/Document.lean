import SchemaDesk.Edit.Basic
import SchemaDesk.Sql.Ddl

/-!
# Projects as documents

A project is stored as one JSON object: the state of the project under a key of its own, and beside
it the SQL text of the project, which is written for other readers and never read back.

`Project.ofDocument` accepts more than `Project.toDocument` writes.  Missing fields take their usual
values, unknown ones are ignored, numbers may be written as text, and the pan may be a list.  What
it accepts has admissible types and actions and is sound.
-/

namespace SchemaDesk

/-- The version of the layout. -/
def documentVersion : Int := 0

/-- A project as a document, with the given time of writing in its SQL text.  Of the pan the first
two coordinates are stored, which have to be there. -/
def Project.toDocument (p : Project) (stamp : Text) : Except Failure Value :=
  match p.pan with
  | x :: y :: _ => do
      let ddl ← Sql.ddl p stamp
      let state := p.toValueWith (.object [("x", x), ("y", y)])
      .ok (.object
        [(Problem.storageKey, .object [("state", state), ("version", .int documentVersion)]),
          ("sql_ddl", .str ddl)])
  | _ => .error .noSuchItem

namespace Document

/-- An entry of a document, null where there is none. -/
def entry (key : Text) (entries : List (Text × Value)) : Value :=
  (Value.get? key entries).getD .null

/-- A value, or another one where it is not truthy. -/
def orElse (v fallback : Value) : Value :=
  if v.isTruthy then v else fallback

/-- The known fields of a stored record.  An identifier is drawn for every record, and used where
the record has none. -/
def knownFields {ρ : Type} (fields : List (Field ρ)) (more : List Text) (place : Place) :
    Value → Minting Patch
  | .object entries => do
      let known := entries.filter fun e => (Field.names fields ++ more).contains e.1
      let id ← mint
      pure (if (Value.get? "id" known).isSome then known else known.concat ("id", .str id))
  | _ => report (.entryNotObject place)

/-- Fails unless a stored value is one of the names of a choice. -/
def checkChoice (v : Value) (choice : Choice) (place : Place) : Except Failure Unit :=
  require (choice.admits v) (.storedChoice place choice v)

/-- The stored value of a field, or its usual value. -/
def fieldOr (key : Text) (fallback : Value) (patch : Patch) : Value :=
  (Value.get? key patch).getD fallback

/-- The items of a stored list; what is not truthy counts as empty. -/
def itemsOf (v : Value) : Except Failure (List Value) :=
  if v.isTruthy then
    match v.elements? with
    | some items => .ok items
    | none => .error .wrongType
  else .ok []

/-- The members of an enumeration as texts. -/
def memberTexts (v : Value) : Except Failure Value :=
  match v with
  | .null => .ok .null
  | _ =>
      match v.elements? with
      | some members => .ok (.list (members.map fun m => .str m.text))
      | none => .error .wrongType

/-- A stored column. -/
def column (v : Value) : Minting Column := do
  let patch ← knownFields Column.fields [] .storedColumn v
  ofExcept (require (Value.get? "name" patch).isSome .columnUnnamed)
  ofExcept (checkChoice (fieldOr "type" DataType.varchar.name patch) .columnType .storedColumn)
  let c := Column.ofPatch patch
  let members ← ofExcept (memberTexts c.enumValues)
  pure { c with enumValues := members }

/-- Whether a value is text that is not blank. -/
def isNameText : Value → Bool
  | .str s => !s.trim.isEmpty
  | _ => false

/-- A stored table. -/
def table (v : Value) : Minting Table := do
  let patch ← knownFields Table.fields ["columns"] .storedTable v
  ofExcept (require (isNameText (entry "name" patch)) .tableUnnamed)
  let items ← ofExcept (itemsOf (entry "columns" patch))
  let columns ← items.mapM column
  pure (Table.ofPatch columns patch)

/-- A stored relation. -/
def relation (v : Value) : Minting Relation := do
  let patch ← knownFields Relation.fields [] .storedRelation v
  let missing := Relation.endFields.filter fun key => !(entry key patch).isTruthy
  ofExcept (require missing.isEmpty (.endsMissing (entry "id" patch) missing))
  ofExcept (checkChoice (fieldOr "type" RelationKind.oneToMany.name patch) .relationKind
    .storedRelation)
  ofExcept (checkChoice (fieldOr "on_delete" ReferentialAction.cascade.name patch)
    .storedDeleteAction .storedRelation)
  ofExcept (checkChoice (fieldOr "on_update" ReferentialAction.cascade.name patch)
    .storedUpdateAction .storedRelation)
  pure (Relation.ofPatch patch)

/-- A stored note. -/
def note (v : Value) : Minting Note := do
  let patch ← knownFields Note.fields [] .storedNote v
  pure (Note.ofPatch patch)

/-- A stored label. -/
def label (v : Value) : Minting Label := do
  let patch ← knownFields Label.fields [] .storedLabel v
  pure (Label.ofPatch patch)

/-- A stored number as a floating-point number. -/
def number (v : Value) : Except Failure Value :=
  v.toBinary64.map Value.float

/-- A stored pan: an object, or something with two parts. -/
def pan (v : Value) : Except Failure (List Value) :=
  let stored := orElse v (.object [])
  match stored with
  | .object entries => do
      let x ← number ((Value.get? "x" entries).getD (.int 0))
      let y ← number ((Value.get? "y" entries).getD (.int 0))
      .ok [x, y]
  | _ => do
      let x ← Edit.numberAt stored 0
      let y ← Edit.numberAt stored 1
      .ok [x, y]

/-- The stored state inside a document. -/
def state (v : Value) : Except Failure (List (Text × Value)) :=
  match v with
  | .object document =>
      match entry Problem.storageKey document with
      | .object stored =>
          match entry "sql_ddl" document with
          | .null | .str _ =>
              match entry "state" stored with
              | .object entries => .ok entries
              | _ => .error (.problem .stateMissing)
          | _ => .error (.problem .ddlNotText)
      | _ => .error (.problem .storageMissing)
  | _ => .error (.problem .storageMissing)

/-- The records stored in a list. -/
def records {α : Type} (read : Value → Minting α) (v : Value) : Minting (List α) := do
  let items ← ofExcept (itemsOf v)
  items.mapM read

/-- The stored identifier of a project as text, or a new one. -/
def projectId (v : Value) : Minting Text :=
  if v.isTruthy then pure v.text else mint

end Document

open Document in
/-- The project that a document stores. -/
def Project.ofDocument (v : Value) : Minting Project := do
  let entries ← ofExcept (Document.state v)
  let database : Value := (orElse (entry "database" entries) Engine.mysql.name).text
  ofExcept (Document.checkChoice database .engine .storedState)
  let pan ← ofExcept (Document.pan (entry "pan" entries))
  let id ← projectId (entry "id" entries)
  let tables ← records Document.table (entry "tables" entries)
  let relations ← records Document.relation (entry "relations" entries)
  let notes ← records Document.note (entry "notes" entries)
  let labels ← records Document.label (entry "texts" entries)
  let zoom ← ofExcept (number (fieldOr "zoom" (.float .one) entries))
  let p : Project :=
    { id := id, name := (orElse (entry "name" entries) "New Database").text, database, tables,
      relations, notes, labels, zoom, pan }
  ofExcept p.checkIntegrity
  pure p

end SchemaDesk
