import SchemaDesk.Schema.Choices
import SchemaDesk.Sql.Grammar

/-!
# Clauses of a table body

An item of a table body is a column, a key of one of three kinds, or something that is not
recognised and will be skipped.  `classify` decides by the first tokens; it never fails, since what
it does not understand is `Clause.unrecognized`.
-/

namespace SchemaDesk.Sql

/-- A foreign key. -/
structure ForeignKey where
  columns : List Text
  targetTable : Text
  targetColumns : List Text
  onDelete : ReferentialAction := .cascade
  onUpdate : ReferentialAction := .cascade
  name : Option Text := none
  deriving DecidableEq, Repr

/-- A column as it is declared.  Modifiers are the words after the type in upper case, with
stand-ins for literals, groups and quoted names, so that nothing quoted can look like a modifier. -/
structure ColumnClause where
  name : Text
  rawType : Text
  arguments : List Text := []
  modifiers : List Text := []
  defaultValue : Option Text := none
  comment : Option Text := none
  references : Option ForeignKey := none
  deriving DecidableEq, Repr

/-- An item of a table body. -/
inductive Clause where
  | column (c : ColumnClause)
  | primaryKey (columns : List Text)
  | unique (columns : List Text)
  | foreignKey (k : ForeignKey)
  | unrecognized (text : Text)
  deriving DecidableEq, Repr

/-! ## Column types -/

/-- The keywords that stand for a type. -/
def keywordsOf : DataType → List Text
  | .int => ["INT", "INTEGER", "MEDIUMINT", "INT4", "SERIAL", "YEAR"]
  | .bigint => ["BIGINT", "INT8", "BIGSERIAL"]
  | .smallint => ["SMALLINT", "TINYINT", "INT2", "SMALLSERIAL"]
  | .float => ["FLOAT", "DOUBLE", "DOUBLE PRECISION", "REAL", "FLOAT4", "FLOAT8"]
  | .decimal => ["DECIMAL", "NUMERIC", "DEC", "MONEY"]
  | .varchar => ["VARCHAR", "CHARACTER VARYING", "NVARCHAR", "VARCHAR2"]
  | .char => ["CHAR", "CHARACTER", "NCHAR"]
  | .text => ["TEXT", "TINYTEXT", "MEDIUMTEXT", "LONGTEXT", "CLOB"]
  | .bool => ["BOOLEAN", "BOOL", "BIT"]
  | .date => ["DATE"]
  | .datetime => ["DATETIME", "DATETIME2"]
  | .timestamp => ["TIMESTAMP", "TIMESTAMPTZ"]
  | .time => ["TIME", "TIMETZ"]
  | .json => ["JSON", "JSONB"]
  | .uuid => ["UUID", "UNIQUEIDENTIFIER"]
  | .binary =>
      ["BLOB", "TINYBLOB", "MEDIUMBLOB", "LONGBLOB", "BINARY", "VARBINARY", "BYTEA"]
  | .enum => ["ENUM"]
  | .set => ["SET"]

/-- The type that a keyword stands for; an unknown keyword stands for text of bounded length. -/
def typeOf (rawType : Text) : DataType :=
  (DataType.all.find? fun type => (keywordsOf type).contains rawType).getD .varchar

/-- The first words of the type keywords. -/
def typeLeads : List Text :=
  (DataType.all.flatMap keywordsOf).map fun keyword =>
    keyword.takeWhile (· ≠ CodePoint.char ' ')

/-- The second word of a type keyword of two words, by its first. -/
def typeFollower? (lead : Text) : Option Text :=
  if lead = "DOUBLE" then some "PRECISION"
  else if lead = "CHARACTER" then some "VARYING"
  else none

/-- The keywords of clauses that are skipped, unless a type follows: then they are column names. -/
def skippedKeywords : List Text :=
  ["KEY", "INDEX", "CHECK", "FULLTEXT", "SPATIAL", "EXCLUDE", "LIKE"]

/-! ## References -/

/-- What sets off a referential action. -/
inductive Event where
  | delete | update
  deriving DecidableEq, Repr

/-- A referential action, if one comes next. -/
def readAction (tokens : List Token) : Option ReferentialAction × List Token :=
  match [ReferentialAction.setNull, .setDefault, .noAction, .cascade, .restrict].findSome?
      fun action => (afterPhrase? action.keywords tokens).map fun rest => (action, rest) with
  | some (action, rest) => (some action, rest)
  | none => (none, tokens)

/-- The keywords around referential actions that are passed over. -/
def referenceNoise : List Text :=
  ["MATCH", "DEFERRABLE", "NOT", "INITIALLY", "FULL", "SIMPLE", "PARTIAL", "IMMEDIATE", "DEFERRED"]

/-- One turn of reading what follows the target of a reference. -/
def referenceTurn (t : Token) (rest : List Token) : Turn (Event × ReferentialAction) :=
  if t.isKeyword ["ON"] then
    match rest with
    | [] => .stop []
    | e :: rest =>
        if e.isKeyword ["DELETE"] then
          let (action, rest) := readAction rest
          .next (action.map (Event.delete, ·)) rest
        else if e.isKeyword ["UPDATE"] then
          let (action, rest) := readAction rest
          .next (action.map (Event.update, ·)) rest
        else if e.isKeyword referenceNoise then .next none rest
        else .stop (e :: rest)
  else if t.isKeyword referenceNoise then .next none rest
  else .stop (t :: rest)

/-- A foreign key with the action of one event set. -/
def ForeignKey.withAction (k : ForeignKey) (entry : Event × ReferentialAction) : ForeignKey :=
  match entry.1 with
  | .delete => { k with onDelete := entry.2 }
  | .update => { k with onUpdate := entry.2 }

/-- A reference of some columns, if the keyword and a target come next. -/
def readReference (columns : List Text) (name : Option Text) (tokens : List Token) :
    Option ForeignKey × List Token :=
  match after? ["REFERENCES"] tokens with
  | none => (none, tokens)
  | some tokens =>
      match readName tokens with
      | (none, tokens) => (none, tokens)
      | (some targetTable, tokens) =>
          let (body, tokens) := readGroup tokens
          let (actions, tokens) := turns referenceTurn tokens
          let key : ForeignKey := { columns, targetTable, targetColumns := namesIn body, name }
          (some (actions.foldl ForeignKey.withAction key), tokens)

/-! ## Columns -/

/-- Where a literal that began before position `stop` ends: words, groups and points that follow
without a gap belong to it. -/
def literalRest (stop : Nat) : List Token → Nat × List Token
  | [] => (stop, [])
  | t :: rest =>
      let joins := match t.lexeme with
        | .word _ => true
        | .group _ => true
        | .mark c => c = '.'
        | _ => false
      if t.start = stop && joins then literalRest t.stop rest else (stop, t :: rest)

/-- The value after `DEFAULT`: a literal's value, the trimmed body of a group, or else a piece of
the text as it stands, where `NULL` is no value. -/
def readDefault (text : Text) : List Token → Option Text × List Token
  | [] => (none, [])
  | t :: rest =>
      match t.lexeme with
      | .literal value => (some value, rest)
      | .group body => (some body.trim, rest)
      | _ =>
          let (stop, rest) := literalRest t.stop rest
          let written := slice text t.start stop
          (if written.upper = "NULL" then none else some written, rest)

/-- What is found after the type of a column. -/
inductive Attribute where
  | default (value : Option Text)
  | comment (text : Text)
  | reference (key : Option ForeignKey)

/-- One turn of reading what follows the type of a column. -/
def attributeTurn (text column : Text) (t : Token) (rest : List Token) : Turn Attribute :=
  if t.isKeyword ["DEFAULT"] then
    let (value, rest) := readDefault text rest
    .next (some (.default value)) rest
  else if t.isKeyword ["COMMENT"] then
    match rest with
    | [] => .next none []
    | c :: rest =>
        match c.lexeme with
        | .literal value => .next (some (.comment value)) rest
        | _ => .next none rest
  else if t.isKeyword ["REFERENCES"] then
    let (key, rest) := readReference [column] none (t :: rest)
    .next (some (.reference key)) rest
  else .next none rest

/-- A column clause with one more attribute. -/
def ColumnClause.with (c : ColumnClause) : Attribute → ColumnClause
  | .default value => { c with defaultValue := value }
  | .comment text => { c with comment := some text }
  | .reference key => { c with references := key }

/-- A token among the modifiers of a column. -/
def modifier (t : Token) : Text :=
  match t.lexeme with
  | .literal _ => "'?'"
  | .group _ => "(...)"
  | .quoted _ => "\"?\""
  | .word w => w.upper
  | .mark c => Text.upper [c]

/-- The column type at the front of the tokens, of one word or two. -/
def readType (lead : Text) (tokens : List Token) : Text × List Token :=
  match typeFollower? lead with
  | none => (lead, tokens)
  | some follower =>
      match after? [follower] tokens with
      | some rest => (lead ++ " " ++ follower, rest)
      | none => (lead, tokens)

/-- The tokens without a time zone phrase, which may follow types of time. -/
def skipTimeZone (rawType : Text) (tokens : List Token) : List Token :=
  if rawType = "TIME" ∨ rawType = "TIMESTAMP" then
    match afterPhrase? ["WITH", "TIME", "ZONE"] tokens with
    | some rest => rest
    | none => skipPhrase ["WITHOUT", "TIME", "ZONE"] tokens
  else tokens

/-- A column: a name and a bare word for its type, then whatever modifies it. -/
def classifyColumn (text : Text) : List Token → Clause
  | n :: t :: rest =>
      match n.name?, t.lexeme with
      | some name, .word type =>
          let (rawType, rest) := readType type.upper rest
          let (arguments, rest) := readGroup rest
          let rest := skipTimeZone rawType rest
          let base : ColumnClause :=
            { name, rawType, arguments := splitItems (arguments.getD []),
              modifiers := rest.map modifier }
          .column ((turns (attributeTurn text name) rest).1.foldl ColumnClause.with base)
      | _, _ => .unrecognized text
  | _ => .unrecognized text

/-! ## Classification -/

/-- The tokens without a name, unless a group comes next. -/
def skipIndexName (tokens : List Token) : List Token :=
  match tokens with
  | t :: _ => if t.isGroup then tokens else (readName tokens).2
  | [] => []

/-- A key of one of the three kinds, if its keywords come next; `none` if they do not. -/
def classifyKey (text : Text) (name : Option Text) (tokens : List Token) : Option Clause :=
  match afterPhrase? ["PRIMARY", "KEY"] tokens with
  | some rest =>
      let columns := namesIn (readGroup rest).1
      some (if columns.isEmpty then .unrecognized text else .primaryKey columns)
  | none =>
      match afterPhrase? ["FOREIGN", "KEY"] tokens with
      | some rest =>
          let rest := if nextIs ["REFERENCES"] rest then rest else skipIndexName rest
          let (body, rest) := readGroup rest
          let columns := namesIn body
          match readReference columns name rest with
          | (some key, _) => some (if columns.isEmpty then .unrecognized text else .foreignKey key)
          | (none, _) => some (.unrecognized text)
      | none =>
          match after? ["UNIQUE"] tokens with
          | some rest =>
              let columns := namesIn (readGroup (skipIndexName (skip ["KEY", "INDEX"] rest))).1
              some (if columns.isEmpty then .unrecognized text else .unique columns)
          | none => none

/-- Whether the tokens begin a clause that is skipped. -/
def beginsSkipped : List Token → Bool
  | t :: rest => t.isKeyword skippedKeywords && !nextIs typeLeads rest
  | [] => false

/-- What an item of a table body is. -/
def classify (text : Text) : Clause :=
  let tokens := tokenize text
  match after? ["CONSTRAINT"] tokens with
  | some rest =>
      let (name, rest) :=
        if nextIs ["PRIMARY", "FOREIGN", "UNIQUE", "CHECK"] rest then (none, rest)
        else readName rest
      (classifyKey text name rest).getD (.unrecognized text)
  | none =>
      match classifyKey text none tokens with
      | some clause => clause
      | none => if beginsSkipped tokens then .unrecognized text else classifyColumn text tokens

end SchemaDesk.Sql
