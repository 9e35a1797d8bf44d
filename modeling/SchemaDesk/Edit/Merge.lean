import SchemaDesk.Edit.Basic
import SchemaDesk.Edit.Flags
import SchemaDesk.Sql.Parsed

/-!
# Taking in what a SQL text declares

Declared tables can be appended to a project as new ones, or merged into it.  A merge joins a
declared table with the project's table of the same name, if there is one: that table keeps its
identifier and its place, and takes over the declared columns, which keep the identifiers of the
columns of the same names.  So the relations of the project survive where their columns do.

Names are equal up to letter case.  Of tables declared twice the last declaration counts, and of
tables that the project has twice the last one is joined.
-/

namespace SchemaDesk.Edit

/-- Appends tables and relations; the result has to be sound. -/
def append (tables : List Table) (relations : List Relation) : Edit Unit := fun p => do
  let q := { p with tables := p.tables ++ tables, relations := p.relations ++ relations }
  ofExcept q.checkIntegrity
  pure ((), some q)

namespace Merge

/-- The tables without those that are declared again later. -/
def lastDeclarations : List Table → List Table
  | [] => []
  | t :: rest =>
      if rest.any (·.name.sameName t.name) then lastDeclarations rest
      else t :: lastDeclarations rest

/-- Identifiers and the identifiers that take their place. -/
abbrev Renaming := List (Value × Value)

/-- What takes the place of an identifier, if anything does; the last entry counts. -/
def renamed (changes : Renaming) (id : Value) : Value :=
  ((changes.reverse.find? (·.1.same id)).map Prod.snd).getD id

/-! ## Joining two tables -/

/-- Declared columns, each with the existing column whose identifier it takes over.  Each existing
identifier is taken over once: by the first declared column of a name, and from the last existing
one.  The columns declared `earlier` have had their turn. -/
def pairColumns (existing earlier : List Column) : List Column → List (Column × Option Column)
  | [] => []
  | c :: rest =>
      let prior :=
        if earlier.any (·.name.sameName c.name) then none
        else existing.reverse.find? (·.name.sameName c.name)
      (c, prior) :: pairColumns existing (c :: earlier) rest

/-- A declared column with the identifier it takes over. -/
def joinedColumn (pair : Column × Option Column) : Column :=
  match pair.2 with
  | some prior => { pair.1 with id := prior.id }
  | none => pair.1

/-- A table joined with a declared table: it takes over the declared columns. -/
def join (existing declared : Table) : Table :=
  { existing with
    columns := (pairColumns existing.columns [] declared.columns).map joinedColumn }

/-- The tables of a project, each joined with the declared table of its name; of tables with the
same name only the last is joined. -/
def joinAll (declared : List Table) : List Table → List Table
  | [] => []
  | t :: rest =>
      let joined :=
        if rest.any (·.name.sameName t.name) then t
        else ((declared.find? (·.name.sameName t.name)).map (join t)).getD t
      joined :: joinAll declared rest

/-- The table that a declared table is joined with, if there is one. -/
def partner? (tables : List Table) (declared : Table) : Option Table :=
  tables.reverse.find? (·.name.sameName declared.name)

/-- What takes the place of the identifiers of declared tables. -/
def tableIds (declared tables : List Table) : Renaming :=
  declared.filterMap fun d => (partner? tables d).map fun t => (d.id, t.id)

/-- What takes the place of the identifiers of a declared table's columns. -/
def columnIdsOf (tables : List Table) (declared : Table) : Renaming :=
  match partner? tables declared with
  | none => []
  | some t =>
      (pairColumns t.columns [] declared.columns).filterMap fun pair =>
        pair.2.map fun prior => (pair.1.id, prior.id)

/-- What takes the place of the identifiers of declared columns. -/
def columnIds (declared tables : List Table) : Renaming :=
  declared.flatMap (columnIdsOf tables)

/-- The declared tables of which the project has none of the name. -/
def newTables (declared tables : List Table) : List Table :=
  declared.filter fun d => !tables.any (·.name.sameName d.name)

/-- Tables after joins, and what takes the place of the identifiers of the declared tables and of
their columns. -/
structure Joined where
  tables : List Table
  tableIds : Renaming
  columnIds : Renaming
  deriving DecidableEq, Repr

/-- The tables of a project after joins with declared tables of different names, and after them the
declared tables that are joined with none. -/
def joined (declared tables : List Table) : Joined :=
  { tables := joinAll declared tables ++ newTables declared tables
    tableIds := tableIds declared tables
    columnIds := columnIds declared tables }

/-! ## The merged project -/

/-- The column with its reference renamed. -/
def renameReference (tableIds columnIds : Renaming) (c : Column) : Column :=
  { c with
    referencesTableId := renamed tableIds c.referencesTableId
    referencesColumnId := renamed columnIds c.referencesColumnId }

/-- The relation with its ends renamed. -/
def renameEnds (tableIds columnIds : Renaming) (r : Relation) : Relation :=
  { r with
    sourceTableId := renamed tableIds r.sourceTableId
    sourceColumnId := renamed columnIds r.sourceColumnId
    targetTableId := renamed tableIds r.targetTableId
    targetColumnId := renamed columnIds r.targetColumnId }

/-- The relations with a declared one added, if it resolves and no relation has the same ends. -/
def addRelation (tables : List Table) (relations : List Relation) (r : Relation) :
    List Relation :=
  if relations.any (·.sameEnds r) || !r.resolvesIn tables then relations else relations ++ [r]

/-- The project with joined tables in place of its own, and with declared relations. -/
def Joined.into (j : Joined) (p : Project) (relations : List Relation) : Project :=
  let tables := j.tables.map fun t =>
    { t with columns := t.columns.map (renameReference j.tableIds j.columnIds) }
  let kept := p.relations.filter (·.resolvesIn tables)
  let all := (relations.map (renameEnds j.tableIds j.columnIds)).foldl (addRelation tables) kept
  { p with tables := Flags.sync all tables, relations := all }

/-- The project after a merge of declared tables and relations. -/
def merged (p : Project) (declared : List Table) (relations : List Relation) : Project :=
  (joined (lastDeclarations declared) p.tables).into p relations

/-! ## What a merge needs -/

/-- Fails unless all of some names are text. -/
def requireText (names : List Value) : Except Failure Unit :=
  if names.all Value.isText then .ok () else .error .notText

/-- Fails unless a declared table can be joined with the table of its name, if there is one. -/
def checkJoin (tables : List Table) (declared : Table) : Except Failure Unit :=
  match partner? tables declared with
  | none => .ok ()
  | some existing => do
      requireText (existing.columns.map Column.name)
      (pairColumns existing.columns [] declared.columns).forM fun pair => do
        requireText [pair.1.name]
        requireKeys (if pair.2.isSome then [pair.1.id] else [])
      requireKeys [declared.id]

/-- The identifiers of the columns that some columns refer to. -/
def references (tables : List Table) : List Value :=
  tables.flatMap fun t =>
    t.columns.flatMap fun c => [c.referencesTableId, c.referencesColumnId]

/-- Fails unless the ends of a relation can be looked up in some tables: first the tables, then the
columns of those that exist. -/
def checkEnds (tables : List Table) (r : Relation) : Except Failure Unit := do
  requireKeys [r.sourceTableId, r.targetTableId]
  match lastTable? tables r.sourceTableId, lastTable? tables r.targetTableId with
  | some source, some _ => do
      requireKeys [r.sourceColumnId]
      requireKeys (if r.sourceColumnId.isAmong source.columnIds then [r.targetColumnId] else [])
  | _, _ => .ok ()

/-- Fails where names are no text, or where identifiers cannot be looked up. -/
def check (p : Project) (declared : List Table) (relations : List Relation) :
    Except Failure Unit := do
  requireText (declared.map Table.name ++ p.tables.map Table.name)
  let declared := lastDeclarations declared
  declared.forM (checkJoin p.tables)
  let tables := joinAll declared p.tables ++ newTables declared p.tables
  requireKeys (references tables)
  p.relations.forM (checkEnds tables)
  requireKeys (relations.flatMap Relation.endIds)

end Merge

/-- Merges declared tables and relations; the result has to be sound. -/
def merge (tables : List Table) (relations : List Relation) : Edit Unit := fun p => do
  ofExcept (Merge.check p tables relations)
  let q := Merge.merged p tables relations
  ofExcept q.checkIntegrity
  pure ((), some q)

end SchemaDesk.Edit
