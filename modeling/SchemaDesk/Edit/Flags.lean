import SchemaDesk.Schema.Lookup

/-!
# Foreign-key flags

A column at which a relation starts is flagged as a foreign key, and repeats the target of the last
such relation.  These functions bring the flags of some tables in line with their relations after
relations were added or removed.
-/

namespace SchemaDesk.Flags

/-- The last of some relations that starts at a column. -/
def lastFrom? (relations : List Relation) (tableId columnId : Value) : Option Relation :=
  relations.reverse.find? (·.startsAt tableId columnId)

/-- The column without the flag. -/
def cleared (c : Column) : Column :=
  { c with isForeignKey := false, referencesTableId := .null, referencesColumnId := .null }

/-- The column flagged as the start of a relation; one that already is stays as it is. -/
def flagged (r : Relation) (c : Column) : Column :=
  if c.isForeignKey.isTruthy && c.referencesTableId.equals r.targetTableId &&
      c.referencesColumnId.equals r.targetColumnId then c
  else
    { c with
      isForeignKey := true, referencesTableId := r.targetTableId,
      referencesColumnId := r.targetColumnId }

/-- Changes every column, given the identifier of its table. -/
def mapColumns (change : Value → Column → Column) (tables : List Table) : List Table :=
  tables.map fun t => { t with columns := t.columns.map (change t.id) }

/-- Clears the flags of the columns at which a removed relation started and no remaining one
starts. -/
def release (removed remaining : List Relation) (tables : List Table) : List Table :=
  mapColumns
    (fun tableId c =>
      if !tableId.isNan && removed.any (·.startsAt tableId c.id) &&
          !remaining.any (·.startsAt tableId c.id)
      then cleared c else c)
    tables

/-- Flags the columns at which relations start. -/
def mark (relations : List Relation) (tables : List Table) : List Table :=
  mapColumns
    (fun tableId c =>
      match lastFrom? relations tableId c.id with
      | some r => flagged r c
      | none => c)
    tables

/-- Flags exactly the columns at which relations start. -/
def sync (relations : List Relation) (tables : List Table) : List Table :=
  mark relations
    (mapColumns
      (fun tableId c =>
        if c.isForeignKey.isTruthy && !relations.any (·.startsAt tableId c.id) then cleared c
        else c)
      tables)

end SchemaDesk.Flags
