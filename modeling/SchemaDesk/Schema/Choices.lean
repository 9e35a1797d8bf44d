import SchemaDesk.Value.Display

/-!
# The closed choices of a schema

Column types, database engines, kinds of relation and referential actions, each with the name it is
stored and shown by.  Records store the name, since a file may hold any other value in its place;
a value is admissible for a choice when it is one of the choice's names.
-/

namespace SchemaDesk

/-- The types a column can have. -/
inductive DataType where
  | int | bigint | smallint | float | decimal | varchar | char | text | bool | date | datetime
  | timestamp | time | json | uuid | binary | enum | set
  deriving DecidableEq, Repr

namespace DataType

/-- All column types, in the order they are offered. -/
def all : List DataType :=
  [.int, .bigint, .smallint, .float, .decimal, .varchar, .char, .text, .bool, .date, .datetime,
    .timestamp, .time, .json, .uuid, .binary, .enum, .set]

/-- The stored name of a column type. -/
def name : DataType → Text
  | .int => "int"
  | .bigint => "bigint"
  | .smallint => "smallint"
  | .float => "float"
  | .decimal => "decimal"
  | .varchar => "varchar"
  | .char => "char"
  | .text => "text"
  | .bool => "bool"
  | .date => "date"
  | .datetime => "datetime"
  | .timestamp => "timestamp"
  | .time => "time"
  | .json => "json"
  | .uuid => "uuid"
  | .binary => "binary"
  | .enum => "enum"
  | .set => "set"

/-- The column type with a given name. -/
def ofName? (s : Text) : Option DataType :=
  all.find? (·.name = s)

theorem mem_all (t : DataType) : t ∈ all := by
  cases t <;> decide

@[simp] theorem ofName?_name (t : DataType) : ofName? t.name = some t := by
  cases t <;> rfl

end DataType

/-- The database engines a project can be written for. -/
inductive Engine where
  | mysql | postgresql | sqlite
  deriving DecidableEq, Repr

namespace Engine

/-- All engines, in the order they are offered. -/
def all : List Engine :=
  [.mysql, .postgresql, .sqlite]

/-- The stored name of an engine. -/
def name : Engine → Text
  | .mysql => "MySQL"
  | .postgresql => "PostgreSQL"
  | .sqlite => "SQLite"

end Engine

/-- How many rows on each side a relation joins. -/
inductive RelationKind where
  | oneToOne | oneToMany | manyToOne | manyToMany
  deriving DecidableEq, Repr

namespace RelationKind

/-- All kinds of relation, in the order they are offered. -/
def all : List RelationKind :=
  [.oneToOne, .oneToMany, .manyToOne, .manyToMany]

/-- The stored name of a kind of relation. -/
def name : RelationKind → Text
  | .oneToOne => "1:1"
  | .oneToMany => "1:N"
  | .manyToOne => "N:1"
  | .manyToMany => "N:M"

end RelationKind

/-- What happens to the rows that refer to a row that is deleted or changed. -/
inductive ReferentialAction where
  | cascade | setNull | setDefault | restrict | noAction
  deriving DecidableEq, Repr

namespace ReferentialAction

/-- All actions, in the order they are offered. -/
def all : List ReferentialAction :=
  [.cascade, .setNull, .setDefault, .restrict, .noAction]

/-- The keywords of an action. -/
def keywords : ReferentialAction → List Text
  | .cascade => ["CASCADE"]
  | .setNull => ["SET", "NULL"]
  | .setDefault => ["SET", "DEFAULT"]
  | .restrict => ["RESTRICT"]
  | .noAction => ["NO", "ACTION"]

/-- The stored name of an action. -/
def name (action : ReferentialAction) : Text :=
  Text.join " " action.keywords

example :
    all.map name =
      (["CASCADE", "SET NULL", "SET DEFAULT", "RESTRICT", "NO ACTION"] : List Text) := by
  decide

end ReferentialAction

/-- The choices that edits and files are checked against. -/
inductive Choice where
  | columnType | engine | relationKind | action | storedDeleteAction | storedUpdateAction
  deriving DecidableEq, Repr

namespace Choice

/-- What a choice is called in a message. -/
def label : Choice → Text
  | .columnType => "column type"
  | .engine => "database engine"
  | .relationKind => "relation type"
  | .action => "action"
  | .storedDeleteAction => "on_delete action"
  | .storedUpdateAction => "on_update action"

/-- The names among which to choose. -/
def names : Choice → List Text
  | .columnType => DataType.all.map DataType.name
  | .engine => Engine.all.map Engine.name
  | .relationKind => RelationKind.all.map RelationKind.name
  | _ => ReferentialAction.all.map ReferentialAction.name

/-- Whether a value is one of the names of a choice. -/
def admits (choice : Choice) : Value → Bool
  | .str s => choice.names.contains s
  | _ => false

end Choice

end SchemaDesk
