import SchemaDesk.Edit.Basic

/-!
# Edits of notes and labels

Notes and labels stand on the canvas beside the tables and have no part in the schema.
-/

namespace SchemaDesk.Edit

/-- Adds a note. -/
def addNote (patch : Patch) : Edit Note := fun p => do
  ofExcept (checkFields patch (fieldsWithout Note.fields ["id"]) .addNote)
  let id ← mint
  let note := Field.patched Note.fields patch { id := id }
  pure (note, some { p with notes := p.notes ++ [note] })

/-- Changes fields of a note. -/
def updateNote (id : Value) (patch : Patch) : Edit Note := fun p => do
  ofExcept (checkFields patch (fieldsWithout Note.fields ["id"]) .editNote)
  match p.notes.find? (·.id.equals id) with
  | none => report (.noteNotFound id)
  | some note =>
      let updated := Field.patched Note.fields patch note
      pure (updated, some
        { p with notes := p.notes.map fun n => if n.id.equals id then updated else n })

/-- Deletes a note, if it exists. -/
def deleteNote (id : Value) : Edit Unit := fun p =>
  let notes := p.notes.filter (!·.id.equals id)
  pure ((), if notes.length = p.notes.length then none else some { p with notes })

/-- Adds a label. -/
def addLabel (patch : Patch) : Edit Label := fun p => do
  ofExcept (checkFields patch (fieldsWithout Label.fields ["id"]) .addLabel)
  let id ← mint
  let label := Field.patched Label.fields patch { id := id }
  pure (label, some { p with labels := p.labels ++ [label] })

/-- Changes fields of a label. -/
def updateLabel (id : Value) (patch : Patch) : Edit Label := fun p => do
  ofExcept (checkFields patch (fieldsWithout Label.fields ["id"]) .editLabel)
  match p.labels.find? (·.id.equals id) with
  | none => report (.labelNotFound id)
  | some label =>
      let updated := Field.patched Label.fields patch label
      pure (updated, some
        { p with labels := p.labels.map fun l => if l.id.equals id then updated else l })

/-- Deletes a label, if it exists. -/
def deleteLabel (id : Value) : Edit Unit := fun p =>
  let labels := p.labels.filter (!·.id.equals id)
  pure ((), if labels.length = p.labels.length then none else some { p with labels })

end SchemaDesk.Edit
