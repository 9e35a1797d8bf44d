import SchemaDesk.Schema.Records
import SchemaDesk.Text.Fold

/-!
# Finding and replacing parts of a schema

Tables and columns are found by identifier or by name.  Names are compared after case folding.
Identifiers are unique in a sound project, so a part is replaced by replacing every part of the same
identifier.  Where tables share one all the same, relations end at the last of them.
-/

namespace SchemaDesk

namespace Value

/-- Whether a value is a name that equals another one up to letter case. -/
def isNamed (name : Text) : Value → Bool
  | .str s => Text.fold s = Text.fold name
  | _ => false

/-- Whether two values are names that are equal up to letter case. -/
def sameName (a : Value) : Value → Bool
  | .str s => a.isNamed s
  | _ => false

/-- Whether a value is text. -/
def isText : Value → Bool
  | .str _ => true
  | _ => false

end Value

/-- The last table with a given identifier. -/
def lastTable? (tables : List Table) (id : Value) : Option Table :=
  tables.reverse.find? (·.id.same id)

/-- Whether the last table with a given identifier has a column of an identifier. -/
def holdsColumn (tables : List Table) (tableId columnId : Value) : Bool :=
  (lastTable? tables tableId).any fun t => t.columns.any (·.id.same columnId)

/-- The last of some tables that has a given name. -/
def tableNamed? (tables : List Table) (name : Text) : Option Table :=
  tables.reverse.find? (·.name.isNamed name)

/-- The first of some columns that has a given name. -/
def columnNamed? (columns : List Column) (name : Text) : Option Column :=
  columns.find? (·.name.isNamed name)

/-- The tables with one replaced by a table of the same identifier. -/
def replaceTable (tables : List Table) (table : Table) : List Table :=
  tables.map fun t => if t.id.equals table.id then table else t

/-- The columns with those of an identifier changed. -/
def changeColumn (columns : List Column) (id : Value) (change : Column → Column) : List Column :=
  columns.map fun c => if c.id.equals id then change c else c

/-- The tables with the columns of an identifier in the table of an identifier changed. -/
def changeColumnIn (tables : List Table) (tableId columnId : Value) (change : Column → Column) :
    List Table :=
  tables.map fun t =>
    if t.id.equals tableId then { t with columns := changeColumn t.columns columnId change } else t

namespace Relation

/-- Whether a relation starts at a column of a table. -/
def startsAt (tableId columnId : Value) (r : Relation) : Bool :=
  r.sourceTableId.same tableId && r.sourceColumnId.same columnId

/-- Whether a relation ends at a column of a table. -/
def endsAt (tableId columnId : Value) (r : Relation) : Bool :=
  r.targetTableId.same tableId && r.targetColumnId.same columnId

/-- Whether a relation has a table at either end. -/
def touches (tableId : Value) (r : Relation) : Bool :=
  r.sourceTableId.same tableId || r.targetTableId.same tableId

/-- Whether two relations join the same columns. -/
def sameEnds (r s : Relation) : Bool :=
  r.startsAt s.sourceTableId s.sourceColumnId && r.endsAt s.targetTableId s.targetColumnId

/-- Whether both ends of a relation are columns of some tables. -/
def resolvesIn (tables : List Table) (r : Relation) : Bool :=
  holdsColumn tables r.sourceTableId r.sourceColumnId &&
    holdsColumn tables r.targetTableId r.targetColumnId

end Relation

end SchemaDesk
