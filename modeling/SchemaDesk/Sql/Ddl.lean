import SchemaDesk.Problem.Basic
import SchemaDesk.Schema.Lookup
import SchemaDesk.Sql.Quoting
import SchemaDesk.Text.Blank

/-!
# Writing a project as SQL

`ddl` writes one `CREATE TABLE` for every table, in order, and then one `ALTER TABLE` for every
relation whose ends exist.  Names are quoted in the way of the project's engine.  A primary key of
one column is written with the column, one of several columns as a clause of its own.

The text begins with two comment lines, which hold the project's name as it is and the time.
-/

namespace SchemaDesk.Sql

/-- The quote around names for an engine. -/
def nameQuote (database : Value) : CodePoint :=
  if database = .str Engine.postgresql.name then '"' else '`'

/-- A name in quotes. -/
def quoteName (quote : CodePoint) (name : Text) : Text :=
  quote :: (doubled quote name ++ [quote])

/-- A name in the quotes of an engine; only text can be a name. -/
def quoteIdentifier (name database : Value) : Except Failure Text :=
  match name with
  | .str s => .ok (quoteName (nameQuote database) s)
  | _ => .error .notText

/-- The SQL keyword of a column type. -/
def typeKeyword : DataType → Text
  | .int => "INT"
  | .bigint => "BIGINT"
  | .smallint => "SMALLINT"
  | .float => "FLOAT"
  | .decimal => "DECIMAL"
  | .varchar => "VARCHAR"
  | .char => "CHAR"
  | .text => "TEXT"
  | .bool => "BOOLEAN"
  | .date => "DATE"
  | .datetime => "DATETIME"
  | .timestamp => "TIMESTAMP"
  | .time => "TIME"
  | .json => "JSON"
  | .uuid => "UUID"
  | .binary => "BLOB"
  | .enum => "ENUM"
  | .set => "SET"

/-- The size of a text column that states none. -/
def defaultTextSize : Nat := 255

/-- A keyword with an argument list. -/
def withArguments (keyword : Text) (arguments : List Text) : Text :=
  keyword ++ "(" ++ Text.join "," arguments ++ ")"

/-- The members of an enumeration as string literals. -/
def memberLiterals (members : Value) : Except Failure (List Text) :=
  match members.elements? with
  | none => .error .wrongType
  | some values => values.mapM fun v =>
      match v with
      | .str s => .ok (quoteLiteral s)
      | _ => .error .notText

/-- The type of a column that has one of the known types. -/
def knownType (type : DataType) (c : Column) : Except Failure Text :=
  let keyword := typeKeyword type
  match type with
  | .varchar =>
      .ok (withArguments keyword
        [if c.size.isTruthy then c.size.text else toString defaultTextSize])
  | .char => .ok (if c.size.isTruthy then withArguments keyword [c.size.text] else keyword)
  | .binary => .ok (if c.size.isTruthy then withArguments "BINARY" [c.size.text] else keyword)
  | .decimal | .float =>
      .ok (if c.precision.isTruthy then
        withArguments keyword
          (if c.scale = .null then [c.precision.text] else [c.precision.text, c.scale.text])
      else keyword)
  | .enum | .set =>
      if c.enumValues.isTruthy then (memberLiterals c.enumValues).map (withArguments keyword)
      else .ok keyword
  | _ => .ok keyword

/-- The type of a column. -/
def columnType (c : Column) : Except Failure Text :=
  if c.type.isKey then
    match c.type with
    | .str s =>
        match DataType.ofName? s with
        | some type => knownType type c
        | none => .error (.problem (.typeNotExported c.name c.type))
    | _ => .error (.problem (.typeNotExported c.name c.type))
  else .error .wrongType

/-- A column with its modifiers, always in the same order. -/
def columnDefinition (c : Column) (database : Value) (inlineKey : Bool) :
    Except Failure Text := do
  let name ← quoteIdentifier c.name database
  let type ← columnType c
  let modifiers : List (Bool × Text) :=
    [(c.isPrimaryKey.isTruthy && inlineKey, "PRIMARY KEY"),
      (!c.isNullable.isTruthy, "NOT NULL"),
      (c.isUnique.isTruthy && !c.isPrimaryKey.isTruthy, "UNIQUE")]
  .ok (Text.join " " (name :: type :: (modifiers.filter Prod.fst).map Prod.snd))

/-- The columns of the primary key of a table. -/
def keyColumns (t : Table) : List Column :=
  t.columns.filter (·.isPrimaryKey.isTruthy)

/-- The statement that creates a table. -/
def createTable (t : Table) (database : Value) : Except Failure Text := do
  let composite := decide (1 < (keyColumns t).length)
  let columns ← t.columns.mapM fun c => columnDefinition c database (!composite)
  let key : List Text ←
    if composite then do
      let names ← (keyColumns t).mapM fun c => quoteIdentifier c.name database
      .ok ["PRIMARY KEY (" ++ Text.join ", " names ++ ")"]
    else .ok []
  let lines := (columns ++ key).map fun line : Text => "  " ++ line
  let name ← quoteIdentifier t.name database
  .ok ("CREATE TABLE " ++ name ++ " (\n" ++ Text.join ",\n" lines ++ "\n);")

/-- The name of the constraint of a relation, from the beginning of its identifier. -/
def constraintName (id : Value) : Except Failure Text :=
  match id with
  | .str s => .ok ("fk_" ++ s.take 8)
  | .list items => .ok ("fk_" ++ (Value.list (items.take 8)).text)
  | _ => .error .wrongType

/-- The statement that adds a relation between two columns. -/
def addForeignKey (r : Relation) (source : Table) (sourceColumn : Column) (target : Table)
    (targetColumn : Column) (database : Value) : Except Failure Text := do
  let sourceName ← quoteIdentifier source.name database
  let constraint ← constraintName r.id
  let sourceColumnName ← quoteIdentifier sourceColumn.name database
  let targetName ← quoteIdentifier target.name database
  let targetColumnName ← quoteIdentifier targetColumn.name database
  .ok ("ALTER TABLE " ++ sourceName ++ " ADD CONSTRAINT " ++ constraint ++
    " FOREIGN KEY (" ++ sourceColumnName ++ ") REFERENCES " ++ targetName ++
    "(" ++ targetColumnName ++ ") ON DELETE " ++ r.onDelete.text ++
    " ON UPDATE " ++ r.onUpdate.text ++ ";")

/-- The statement that adds a relation, if both its ends exist. -/
def alterTable? (p : Project) (r : Relation) : Except Failure (Option Text) :=
  if r.sourceTableId.isKey && r.targetTableId.isKey then
    match lastTable? p.tables r.sourceTableId, lastTable? p.tables r.targetTableId with
    | some source, some target =>
        match source.column? r.sourceColumnId, target.column? r.targetColumnId with
        | some sourceColumn, some targetColumn =>
            (addForeignKey r source sourceColumn target targetColumn p.database).map some
        | _, _ => .ok none
    | _, _ => .ok none
  else .error .wrongType

/-- A project as SQL text, with the given time of writing. -/
def ddl (p : Project) (stamp : Text) : Except Failure Text := do
  let creates ← p.tables.mapM fun t => createTable t p.database
  if p.tables.all (·.id.isKey) then
    let alters ← p.relations.mapM (alterTable? p)
    let alters := alters.filterMap id
    let header : List Text := ["-- Database: " ++ p.name.text, "-- Generated at: " ++ stamp, []]
    let relationships : List Text :=
      if alters.isEmpty then [] else "-- Relationships" :: (alters ++ [[]])
    .ok (Text.join "\n" (header ++ creates.flatMap ([·, []]) ++ relationships))
  else .error .wrongType

/-- The name of the file that a project is exported to. -/
def exportFileName (projectName : Value) : Except Failure Text :=
  match projectName with
  | .str s => .ok (s.underscored ++ ".sql")
  | _ => .error .wrongType

end SchemaDesk.Sql
