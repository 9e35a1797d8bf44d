import SchemaDesk.Problem.Report
import SchemaDesk.Schema.Choices

/-!
# What can go wrong

`Problem` lists the mistakes that are reported to the user, each with what its report mentions.
`Failure` adds the mistakes in the shape of the data that have no report of their own: a value of
the wrong type where a number or a list is needed, a numeral that is none, a missing entry.
-/

namespace SchemaDesk

/-- Where in an edit or a file a problem is located. -/
inductive Place where
  | projectName | projectEngine
  | addTable | addTableName | editTable | editTableName | deleteTable
  | addColumn | editColumn | deleteColumn
  | addRelation | sourceTable | sourceColumn | targetTable | targetColumn
  | relationKind | deleteAction | updateAction
  | addNote | editNote | addLabel | editLabel
  | storedState | storedTable | storedColumn | storedRelation | storedNote | storedLabel
  deriving DecidableEq, Repr

namespace Place

/-- How a place is named in a report. -/
def text : Place → Text
  | .projectName => "Project / Name"
  | .projectEngine => "Project / Database"
  | .addTable => "Add table"
  | .addTableName => "Add table / Name"
  | .editTable => "Edit table"
  | .editTableName => "Edit table / Name"
  | .deleteTable => "Delete table"
  | .addColumn => "Add column"
  | .editColumn => "Edit column"
  | .deleteColumn => "Delete column"
  | .addRelation => "Add relation"
  | .sourceTable => "Add relation / Source table"
  | .sourceColumn => "Add relation / Source column"
  | .targetTable => "Add relation / Target table"
  | .targetColumn => "Add relation / Target column"
  | .relationKind => "Add relation / Type"
  | .deleteAction => "Add relation / On delete"
  | .updateAction => "Add relation / On update"
  | .addNote => "Add note"
  | .editNote => "Edit note"
  | .addLabel => "Add text"
  | .editLabel => "Edit text"
  | .storedState => "State"
  | .storedTable => "Table"
  | .storedColumn => "Column"
  | .storedRelation => "Relation"
  | .storedNote => "Note"
  | .storedLabel => "Text"

end Place

/-- The two ends of a relation. -/
inductive Side where
  | source | target
  deriving DecidableEq, Repr

/-- How an end of a relation is named in a report. -/
def Side.text : Side → Text
  | .source => "source"
  | .target => "target"

/-- A mistake that is reported to the user. -/
inductive Problem where
  | unsupportedFields (place : Place) (fields allowed : List Text)
  | nameRequired (place : Place)
  | unsupportedChoice (place : Place) (choice : Choice) (value : Value)
  | zoomNotPositive
  | tableNotFound (place : Place) (id : Value)
  | columnNotFound (place : Place) (id tableName : Value)
  | onlyColumn (tableName : Value)
  | noteNotFound (id : Value)
  | labelNotFound (id : Value)
  | duplicateEntityId
  | duplicateColumnId
  | endTableMissing (relation : Value) (side : Side) (table : Value)
  | endColumnMissing (relation : Value) (side : Side) (column : Value)
  | typeNotExported (column type : Value)
  | storageMissing
  | ddlNotText
  | stateMissing
  | entryNotObject (place : Place)
  | columnUnnamed
  | tableUnnamed
  | endsMissing (relation : Value) (fields : List Text)
  | storedChoice (place : Place) (choice : Choice) (value : Value)
  | unreadable (path : Text)
  | unwritable
  | noTables
  | emptyTables (names : List Text)
  | historyTooShort
  | timersMissing
  | unknownLogLevel (level : Value)
  deriving DecidableEq, Repr

namespace Problem

/-- Names with commas between them. -/
def listed (names : List Text) : Text :=
  Text.join ", " names

/-- Names in the order of texts with commas between them. -/
def listedSorted (names : List Text) : Text :=
  listed (names.mergeSort fun a b => decide (a ≤ b))

/-- The kind of thing a name is required for at a place. -/
def namedKind : Place → Text
  | .projectName => "project"
  | .addColumn | .editColumn => "column"
  | _ => "table"

/-- The key under which a project file holds its project. -/
def storageKey : Text := "dbcanvas-project"

/-- The report of a mistake in an edit or in the project itself. -/
def schemaReport (location issue hint : Text) : Report :=
  ⟨"Schema", location, issue, hint⟩

/-- The report of a mistake in a project file. -/
def fileReport (location issue hint : Text) : Report :=
  ⟨"Project file", location, issue, hint⟩

/-- The report of a mistake. -/
def report : Problem → Report
  | .unsupportedFields place fields allowed =>
      schemaReport place.text ("unsupported field(s) " ++ listedSorted fields)
        ("use only: " ++ listedSorted allowed)
  | .nameRequired place =>
      schemaReport place.text "name is required"
        ("enter a non-empty " ++ namedKind place ++ " name")
  | .unsupportedChoice place choice value =>
      schemaReport place.text ("unsupported " ++ choice.label ++ " '" ++ value.text ++ "'")
        ("choose one of: " ++ listed choice.names)
  | .zoomNotPositive =>
      schemaReport "Viewport / Zoom" "zoom must be > 0" "pass a positive zoom factor"
  | .tableNotFound place id =>
      schemaReport place.text ("table '" ++ id.text ++ "' was not found") "choose an existing table"
  | .columnNotFound place id tableName =>
      schemaReport place.text
        ("column '" ++ id.text ++ "' was not found on table '" ++ tableName.text ++ "'")
        "choose an existing column"
  | .onlyColumn tableName =>
      schemaReport Place.deleteColumn.text
        ("column is the only column of table '" ++ tableName.text ++ "'")
        "add another column first or delete the table"
  | .noteNotFound id =>
      schemaReport Place.editNote.text ("note '" ++ id.text ++ "' was not found")
        "choose an existing note"
  | .labelNotFound id =>
      schemaReport Place.editLabel.text ("text '" ++ id.text ++ "' was not found")
        "choose an existing text element"
  | .duplicateEntityId =>
      schemaReport "Invariants" "duplicate entity id" "mint ids through the schema store"
  | .duplicateColumnId =>
      schemaReport "Invariants" "duplicate column id" "mint a fresh id for every column"
  | .endTableMissing relation side table =>
      schemaReport "Invariants"
        ("relation '" ++ relation.text ++ "' " ++ side.text ++ " table '" ++ table.text ++
          "' does not exist")
        "delete relations together with their tables"
  | .endColumnMissing relation side column =>
      schemaReport "Invariants"
        ("relation '" ++ relation.text ++ "' " ++ side.text ++ " column '" ++ column.text ++
          "' does not exist")
        "delete relations together with their columns"
  | .typeNotExported column type =>
      ⟨"SQL export", "Column '" ++ column.text ++ "'", "unsupported type '" ++ type.text ++ "'",
        "use one of: " ++ listed Choice.columnType.names⟩
  | .storageMissing =>
      fileReport "Storage key" ("payload has no '" ++ storageKey ++ "' object")
        "load a project file saved by this application"
  | .ddlNotText =>
      fileReport "sql_ddl" "key 'sql_ddl' must be a string when present"
        "set 'sql_ddl' to a SQL DDL string or remove the key"
  | .stateMissing =>
      fileReport Place.storedState.text "project state is missing"
        "load a project file saved by this application"
  | .entryNotObject place =>
      fileReport place.text "entry must be a JSON object"
        "restore the entry from a saved project"
  | .columnUnnamed =>
      fileReport Place.storedColumn.text "column name is missing" "give every column a 'name'"
  | .tableUnnamed =>
      fileReport Place.storedTable.text "table name is missing"
        "give every table a non-empty 'name'"
  | .endsMissing relation fields =>
      fileReport Place.storedRelation.text
        ("relation '" ++ relation.text ++ "' is missing " ++ listed fields)
        "remove the broken relation or restore its endpoints"
  | .storedChoice place choice value =>
      fileReport place.text ("unsupported " ++ choice.label ++ " '" ++ value.text ++ "'")
        ("use one of: " ++ listed choice.names)
  | .unreadable path =>
      fileReport "Path" ("failed to read project JSON from '" ++ path ++ "' (...)")
        "choose an existing project file saved by this application"
  | .unwritable =>
      fileReport "SQL export" "failed to write SQL file (...)"
        "check destination path permissions and retry"
  | .noTables =>
      ⟨"Import SQL", "Input", "no tables found", "paste one or more CREATE TABLE statements"⟩
  | .emptyTables names =>
      ⟨"Import SQL", "Input", "table(s) " ++ listed names ++ " have no usable columns",
        "declare at least one column per CREATE TABLE statement"⟩
  | .historyTooShort =>
      ⟨"History", "Max history", "must be >= 1", "pass a positive history length"⟩
  | .timersMissing =>
      ⟨"SQL editor", "Debounce", "requires widget.after and widget.after_cancel support",
        "pass a Tk widget or an object with both methods"⟩
  | .unknownLogLevel level =>
      ⟨"Logging", "Level", "unknown log level '" ++ level.text ++ "'",
        "use DEBUG, INFO, WARNING, ERROR or CRITICAL"⟩

/-- The line that is shown for a mistake. -/
def message (p : Problem) : Text :=
  p.report.message

end Problem

/-- Why an operation fails. -/
inductive Failure where
  /-- A mistake with a report. -/
  | problem (p : Problem)
  /-- A value of a type that the operation has no use for. -/
  | wrongType
  /-- A text that writes no integer. -/
  | notInteger (text : Text)
  /-- A text that writes no number. -/
  | notReal (text : Text)
  /-- A number outside the range of what it stands for, or with too many digits. -/
  | badNumber
  /-- A position behind the end of a list. -/
  | noSuchItem
  /-- A key that an object lacks. -/
  | noSuchEntry
  /-- A text operation on a value that is not text. -/
  | notText
  /-- A look at the entries of a value that is no object. -/
  | notObject
  /-- A number too large for what is to hold it, or an infinite one where an integer is needed. -/
  | tooLarge
  /-- Bytes that are not UTF-8. -/
  | notUtf8
  /-- A text with a surrogate where bytes are needed. -/
  | unpaired
  /-- Data or folders that are nested too deeply. -/
  | tooDeep
  /-- A path with a character that no path may hold. -/
  | badPath
  /-- A path at which no file can be read or written. -/
  | noSuchFile
  /-- A path of a folder where a file is needed. -/
  | isFolder
  deriving DecidableEq, Repr

end SchemaDesk
