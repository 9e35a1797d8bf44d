import SchemaDesk.Edit.Annotations
import SchemaDesk.Edit.Merge
import SchemaDesk.Edit.Relations

/-!
# Edits as data

Every edit that can be asked for, as one type: a session is a list of commands.
-/

namespace SchemaDesk

/-- An edit that can be asked for. -/
inductive Command where
  | setProjectName (name : Value)
  | setEngine (database : Value)
  | setViewport (zoom pan : Value)
  | reset
  | addTable (name : Value) (patch : Patch)
  | updateTable (id : Value) (patch : Patch)
  | moveTable (id x y : Value)
  | deleteTable (id : Value)
  | addColumn (tableId name type : Value) (patch : Patch)
  | updateColumn (tableId columnId : Value) (patch : Patch)
  | deleteColumn (tableId columnId : Value)
  | addRelation (ends : Edit.Ends) (options : Edit.RelationOptions) (patch : Patch)
  | deleteRelation (id : Value)
  | addNote (patch : Patch)
  | updateNote (id : Value) (patch : Patch)
  | deleteNote (id : Value)
  | addLabel (patch : Patch)
  | updateLabel (id : Value) (patch : Patch)
  | deleteLabel (id : Value)
  | restore (snapshot : Snapshot)
  | load (project : Project)
  | append (tables : List Table) (relations : List Relation)
  | merge (tables : List Table) (relations : List Relation)
  deriving DecidableEq, Repr

/-- What an edit answers: nothing, or the record it added or changed. -/
inductive Reply where
  | done
  | table (t : Table)
  | column (c : Column)
  | relation (r : Relation)
  | note (n : Note)
  | label (l : Label)
  deriving DecidableEq, Repr

/-- A reply as a value. -/
def Reply.toValue : Reply → Value
  | .done => .null
  | .table t => t.toValue
  | .column c => c.toValue
  | .relation r => r.toValue
  | .note n => n.toValue
  | .label l => l.toValue

/-- An edit with its answer turned into a reply. -/
def Edit.replying {α : Type} (reply : α → Reply) (edit : Edit α) : Edit Reply := fun p => do
  let (answer, next) ← edit p
  pure (reply answer, next)

/-- The edit that a command asks for.  Starting over takes the given name and engine. -/
def Command.edit (name database : Value) : Command → Edit Reply
  | .setProjectName v => Edit.replying (fun _ => .done) (Edit.setProjectName v)
  | .setEngine v => Edit.replying (fun _ => .done) (Edit.setEngine v)
  | .setViewport zoom pan => Edit.replying (fun _ => .done) (Edit.setViewport zoom pan)
  | .reset => Edit.replying (fun _ => .done) (Edit.reset name database)
  | .addTable v patch => Edit.replying .table (Edit.addTable v patch)
  | .updateTable id patch => Edit.replying .table (Edit.updateTable id patch)
  | .moveTable id x y => Edit.replying .table (Edit.moveTable id x y)
  | .deleteTable id => Edit.replying (fun _ => .done) (Edit.deleteTable id)
  | .addColumn tableId v type patch =>
      Edit.replying .column (Edit.addColumn tableId v type patch)
  | .updateColumn tableId columnId patch =>
      Edit.replying .column (Edit.updateColumn tableId columnId patch)
  | .deleteColumn tableId columnId =>
      Edit.replying (fun _ => .done) (Edit.deleteColumn tableId columnId)
  | .addRelation ends options patch =>
      Edit.replying .relation (Edit.addRelation ends options patch)
  | .deleteRelation id => Edit.replying (fun _ => .done) (Edit.deleteRelation id)
  | .addNote patch => Edit.replying .note (Edit.addNote patch)
  | .updateNote id patch => Edit.replying .note (Edit.updateNote id patch)
  | .deleteNote id => Edit.replying (fun _ => .done) (Edit.deleteNote id)
  | .addLabel patch => Edit.replying .label (Edit.addLabel patch)
  | .updateLabel id patch => Edit.replying .label (Edit.updateLabel id patch)
  | .deleteLabel id => Edit.replying (fun _ => .done) (Edit.deleteLabel id)
  | .restore snapshot => Edit.replying (fun _ => .done) (Edit.restore snapshot)
  | .load project => Edit.replying (fun _ => .done) (Edit.load project)
  | .append tables relations => Edit.replying (fun _ => .done) (Edit.append tables relations)
  | .merge tables relations => Edit.replying (fun _ => .done) (Edit.merge tables relations)

end SchemaDesk
