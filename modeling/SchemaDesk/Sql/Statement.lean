import SchemaDesk.Sql.Comment
import SchemaDesk.Sql.Grammar

/-!
# Statements of a SQL text

Of all statements only two matter: `CREATE TABLE` with a parenthesised body, and `ALTER TABLE` with
what it asks for.  Anything else is passed over token by token.  An `ALTER TABLE` ends at a
semicolon or before the next `CREATE` or `ALTER`; so do the options after the body of a
`CREATE TABLE`.
-/

namespace SchemaDesk.Sql

/-- The options after the body of a table. -/
structure TableOptions where
  engine : Option Text := none
  charset : Option Text := none
  collation : Option Text := none
  comment : Option Text := none
  deriving DecidableEq, Repr

/-- Which option is set. -/
inductive OptionKey where
  | engine | charset | collation | comment
  deriving DecidableEq, Repr

/-- The options with one of them set. -/
def TableOptions.with (options : TableOptions) (entry : OptionKey × Text) : TableOptions :=
  match entry.1 with
  | .engine => { options with engine := some entry.2 }
  | .charset => { options with charset := some entry.2 }
  | .collation => { options with collation := some entry.2 }
  | .comment => { options with comment := some entry.2 }

/-- A statement that matters. -/
inductive Statement where
  | createTable (name body : Text) (options : TableOptions)
  | alterTable (name actions : Text)
  deriving DecidableEq, Repr

/-- The keywords that begin a statement. -/
def openers : List Text := ["CREATE", "ALTER"]

/-- The text of a token that can be the value of an option. -/
def optionText? (t : Token) : Option Text :=
  match t.lexeme with
  | .word w => some w
  | .quoted n => some n
  | .literal v => some v
  | _ => none

/-- The value of an option after its keyword and an optional equals sign, if there is one. -/
def optionTurn (key : OptionKey) (tokens : List Token) : Turn (OptionKey × Text) :=
  match skipMark '=' tokens with
  | [] => .next none []
  | t :: rest =>
      match optionText? t with
      | some value => .next (some (key, value)) rest
      | none => .next none (t :: rest)

/-- One turn of reading options. -/
def optionsTurn (t : Token) (rest : List Token) : Turn (OptionKey × Text) :=
  if t.isMark ';' then .stop rest
  else if t.isKeyword openers then .stop (t :: rest)
  else if t.isKeyword ["ENGINE"] then optionTurn .engine rest
  else if t.isKeyword ["CHARSET"] then optionTurn .charset rest
  else if t.isKeyword ["CHARACTER"] && nextIs ["SET"] rest then
    optionTurn .charset (skip ["SET"] rest)
  else if t.isKeyword ["COLLATE"] then optionTurn .collation rest
  else if t.isKeyword ["COMMENT"] then optionTurn .comment rest
  else .next none rest

/-- The options after the body of a table; of an option set twice the last value counts. -/
def readOptions (tokens : List Token) : TableOptions × List Token :=
  let (found, rest) := turns optionsTurn tokens
  (found.foldl TableOptions.with {}, rest)

/-- What follows `CREATE`. -/
def createTurn (tokens : List Token) : Turn Statement :=
  let tokens := tokens.dropWhile (Token.isKeyword
    ["TEMPORARY", "TEMP", "UNLOGGED", "GLOBAL", "LOCAL"])
  match after? ["TABLE"] tokens with
  | none => .next none tokens
  | some tokens =>
      let (name, tokens) := readName (skipPhrase ["IF", "NOT", "EXISTS"] tokens)
      let (body, tokens) := readGroup tokens
      match name, body with
      | some name, some body =>
          let (options, tokens) := readOptions tokens
          .next (some (.createTable name body options)) tokens
      | _, _ => .next none tokens

/-- Whether a token belongs to the actions of an `ALTER TABLE`. -/
def inActions (t : Token) : Bool :=
  !t.isMark ';' && !t.isKeyword openers

/-- What follows `ALTER`.  The actions are kept as they stand in `text`, the text that the tokens
were read from. -/
def alterTurn (text : Text) (tokens : List Token) : Turn Statement :=
  match after? ["TABLE"] tokens with
  | none => .next none tokens
  | some tokens =>
      let (name, tokens) := readName (skipPhrase ["IF", "EXISTS"] (skip ["ONLY"] tokens))
      let actions := tokens.takeWhile inActions
      let rest := skipMark ';' (tokens.dropWhile inActions)
      match name, actions.head?, actions.getLast? with
      | some name, some first, some last =>
          .next (some (.alterTable name (slice text first.start last.stop))) rest
      | _, _, _ => .next none rest

/-- One turn of looking for statements. -/
def statementTurn (text : Text) (t : Token) (rest : List Token) : Turn Statement :=
  if t.isKeyword ["CREATE"] then createTurn rest
  else if t.isKeyword ["ALTER"] then alterTurn text rest
  else .next none rest

/-- The statements that matter of a text, in order. -/
def statements (sql : Text) : List Statement :=
  let text := stripComments sql
  (turns (statementTurn text) (tokenize text)).1

end SchemaDesk.Sql
