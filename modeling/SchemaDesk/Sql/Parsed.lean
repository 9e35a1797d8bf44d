import SchemaDesk.Ident
import SchemaDesk.Schema.Lookup
import SchemaDesk.Sql.Clause
import SchemaDesk.Sql.Statement
import SchemaDesk.Value.Number

/-!
# Reading a schema from SQL text

`parse` turns the statements of a text into tables and relations.  First every `CREATE TABLE` gives
a table; one without a usable column is only reported.  Then the foreign keys are resolved, those of
the tables before those of the `ALTER TABLE` statements, so that a key may refer to a table that is
declared later.  Names are compared after case folding, and of tables of the same name the last one
counts.  A key that does not resolve is dropped.

Reading fails in one case only: an argument of a type consists of digits and yet writes no number
that can be read.
-/

namespace SchemaDesk

/-- What a SQL text declares.  The empty tables and the skipped clauses are only reported. -/
structure Parsed where
  tables : List Table := []
  relations : List Relation := []
  emptyTables : List Text := []
  skippedClauses : List Text := []
  deriving DecidableEq, Repr

/-- Whether the text declares any table, usable or not. -/
def Parsed.foundStatements (p : Parsed) : Bool :=
  !p.tables.isEmpty || !p.emptyTables.isEmpty

namespace Value

/-- A text that may be absent. -/
def ofText? : Option Text → Value
  | some s => .str s
  | none => .null

end Value

namespace Sql

/-! ## Columns -/

/-- What the arguments of a column type say. -/
structure TypeArguments where
  size : Value := .null
  precision : Value := .null
  scale : Value := .null
  enumValues : Value := .null
  deriving DecidableEq, Repr

/-- An argument as a number, if it consists of digits. -/
def numberArgument (argument : Text) : Except Failure Value :=
  let digits := argument.trim
  if digits ≠ [] ∧ digits.all (·.is Text.isDigit) then
    (Value.toInteger (.str digits)).map Value.int
  else .ok .null

/-- The argument at a position as a number; an absent one is null. -/
def numberArgumentAt (arguments : List Text) (position : Nat) : Except Failure Value :=
  match arguments[position]? with
  | some argument => numberArgument argument
  | none => .ok .null

/-- The members of an enumeration: the arguments that are string literals. -/
def members (arguments : List Text) : List Value :=
  arguments.filterMap fun argument =>
    match (tokenize argument).head?.map Token.lexeme with
    | some (.literal value) => some (.str value)
    | _ => none

/-- What the arguments of a type of the given kind say. -/
def typeArguments (type : DataType) (arguments : List Text) : Except Failure TypeArguments :=
  match type with
  | .varchar | .char | .binary => do
      let size ← numberArgumentAt arguments 0
      .ok { size }
  | .decimal | .float => do
      let precision ← numberArgumentAt arguments 0
      let scale ← numberArgumentAt arguments 1
      .ok { precision, scale }
  | .enum | .set => .ok { enumValues := .list (members arguments) }
  | _ => .ok {}

/-- Whether words contain a phrase. -/
def hasPhrase (phrase : List Text) : List Text → Bool
  | [] => phrase.isEmpty
  | word :: words => phrase.isPrefixOf (word :: words) || hasPhrase phrase words

/-- The types that number their rows by themselves. -/
def serialTypes : List Text := ["SERIAL", "BIGSERIAL", "SMALLSERIAL"]

/-- The column that a clause declares. -/
def buildColumn (c : ColumnClause) : Minting Column := do
  let type := typeOf c.rawType
  let arguments ← ofExcept (typeArguments type c.arguments)
  let has (phrase : List Text) : Value := hasPhrase phrase c.modifiers
  let id ← mint
  pure
    { id := id, name := c.name, type := type.name, size := arguments.size,
      precision := arguments.precision, scale := arguments.scale,
      isPrimaryKey := has ["PRIMARY", "KEY"],
      isNullable := !hasPhrase ["NOT", "NULL"] c.modifiers,
      isUnique := has ["UNIQUE"],
      isAutoIncrement :=
        hasPhrase ["AUTO_INCREMENT"] c.modifiers || hasPhrase ["AUTOINCREMENT"] c.modifiers ||
          hasPhrase ["IDENTITY"] c.modifiers || serialTypes.contains c.rawType,
      isUnsigned := has ["UNSIGNED"],
      defaultValue := .ofText? c.defaultValue, comment := .ofText? c.comment,
      enumValues := arguments.enumValues }

/-! ## Tables -/

/-- The column that a clause declares, if it declares one. -/
def Clause.column? : Clause → Option ColumnClause
  | .column c => some c
  | _ => none

/-- The foreign key that a clause declares, on its own or with a column. -/
def Clause.foreignKey? : Clause → Option ForeignKey
  | .column c => c.references
  | .foreignKey k => some k
  | _ => none

/-- The columns that a clause makes the primary key. -/
def Clause.primaryKey? : Clause → Option (List Text)
  | .primaryKey columns => some columns
  | _ => none

/-- The column that a clause makes unique; a key of several columns makes none of them so. -/
def Clause.uniqueColumn? : Clause → Option Text
  | .unique [name] => some name
  | _ => none

/-- The text of a clause that is skipped, on one line. -/
def Clause.skipped? : Clause → Option Text
  | .unrecognized text => some text.flattened
  | _ => none

/-- Changes the columns that have one of some names. -/
def markColumns (names : List Text) (mark : Column → Column) (columns : List Column) :
    List Column :=
  columns.map fun c => if names.any (c.name.isNamed ·) then mark c else c

/-- The columns with the keys of the table marked on them. -/
def withKeys (clauses : List Clause) (columns : List Column) : List Column :=
  let primary := (clauses.filterMap Clause.primaryKey?).foldl
    (fun cs names => markColumns names (fun c => { c with isPrimaryKey := true }) cs) columns
  (clauses.filterMap Clause.uniqueColumn?).foldl
    (fun cs name => markColumns [name] (fun c => { c with isUnique := true }) cs) primary

/-- How many tables stand in a row of the grid in which new tables are laid out. -/
def gridColumns : Nat := 3

/-- The distance of the rows, and of the columns, of the grid. -/
def gridSpacing : Nat := 350

/-- The distance of the grid from the edges of the canvas. -/
def gridMargin : Nat := 50

/-- The table that a statement declares, as the given one of its text. -/
def buildTable (index : Nat) (name : Text) (clauses : List Clause) (options : TableOptions) :
    Minting Table := do
  let columns ← (clauses.filterMap Clause.column?).mapM buildColumn
  let id ← mint
  pure
    { id := id, name := name, columns := withKeys clauses columns,
      x := .int (index % gridColumns * gridSpacing + gridMargin : Nat),
      y := .int (index / gridColumns * gridSpacing + gridMargin : Nat),
      comment := .ofText? options.comment, engine := .ofText? options.engine,
      charset := .ofText? options.charset, collation := .ofText? options.collation }

/-- What is known after some statements: the tables so far and the foreign keys, each with the
identifier of its table, that are still to be resolved. -/
structure Draft where
  tables : List Table := []
  keys : List (Value × ForeignKey) := []
  emptyTables : List Text := []
  skippedClauses : List Text := []

/-- The draft after one more statement; an `ALTER TABLE` has to wait for all tables. -/
def Draft.add (d : Draft) : Statement → Minting Draft
  | .alterTable .. => pure d
  | .createTable name body options => do
      let clauses := (splitItems body).map classify
      let table ← buildTable d.tables.length name clauses options
      let d := { d with skippedClauses := d.skippedClauses ++ clauses.filterMap Clause.skipped? }
      if table.columns.isEmpty then pure { d with emptyTables := d.emptyTables ++ [name] }
      else
        pure
          { d with
            tables := d.tables ++ [table]
            keys := d.keys ++ (clauses.filterMap Clause.foreignKey?).map (table.id, ·) }

/-! ## Foreign keys -/

/-- The foreign keys that the actions of an `ALTER TABLE` add. -/
def addedKeys (actions : Text) : List ForeignKey :=
  (splitItems actions).filterMap fun action =>
    match tokenize action with
    | add :: first :: _ =>
        if add.isKeyword ["ADD"] then
          match classify (action.drop first.start) with
          | .foreignKey k => some k
          | _ => none
        else none
    | _ => none

/-- The foreign keys that a statement adds to a table declared elsewhere. -/
def laterKeys (tables : List Table) : Statement → List (Value × ForeignKey)
  | .createTable .. => []
  | .alterTable name actions =>
      match tableNamed? tables name with
      | some table => (addedKeys actions).map (table.id, ·)
      | none => []

/-- Tables whose foreign keys are being resolved, and the relations found so far. -/
structure Linking where
  tables : List Table
  relations : List Relation := []

/-- The names of the columns a key refers to: those it lists, or else the target's primary key. -/
def targetNames (k : ForeignKey) (target : Table) : List Text :=
  if k.targetColumns.isEmpty then
    (target.columns.filter (·.isPrimaryKey.isTruthy)).filterMap fun c =>
      match c.name with
      | .str s => some s
      | _ => none
  else k.targetColumns

/-- Links one column of a key with the column it refers to, if both exist: the source column is
marked and a relation is added. -/
def Linking.link (k : ForeignKey) (source target : Table) (state : Linking)
    (names : Text × Text) : Minting Linking := do
  match columnNamed? source.columns names.1, columnNamed? target.columns names.2 with
  | some sourceColumn, some targetColumn =>
      let id ← mint
      let mark (c : Column) : Column :=
        { c with
          isForeignKey := true, referencesTableId := target.id,
          referencesColumnId := targetColumn.id }
      let relation : Relation :=
        { id := id, sourceTableId := source.id, sourceColumnId := sourceColumn.id,
          targetTableId := target.id, targetColumnId := targetColumn.id,
          onDelete := k.onDelete.name, onUpdate := k.onUpdate.name, name := .ofText? k.name,
          sourceSide := "right", targetSide := "left" }
      pure
        { tables := changeColumnIn state.tables source.id sourceColumn.id mark,
          relations := state.relations ++ [relation] }
  | _, _ => pure state

/-- Resolves one key: its columns are linked one by one with those it refers to.  Linking changes
neither names nor identifiers, so both tables may be looked up once. -/
def Linking.resolve (state : Linking) (key : Value × ForeignKey) : Minting Linking := do
  match state.tables.find? (·.id.equals key.1), tableNamed? state.tables key.2.targetTable with
  | some source, some target =>
      (key.2.columns.zip (targetNames key.2 target)).foldlM
        (Linking.link key.2 source target) state
  | _, _ => pure state

/-- The tables and relations that a SQL text declares. -/
def parse (sql : Text) : Minting Parsed := do
  let found := statements sql
  let draft ← found.foldlM Draft.add {}
  let keys := draft.keys ++ found.flatMap (laterKeys draft.tables)
  let linked ← keys.foldlM Linking.resolve { tables := draft.tables }
  pure
    { tables := linked.tables, relations := linked.relations,
      emptyTables := draft.emptyTables, skippedClauses := draft.skippedClauses }

end Sql

end SchemaDesk
